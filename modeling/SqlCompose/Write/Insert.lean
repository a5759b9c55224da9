import SqlCompose.Write.Content

/-!
# INSERT statements

Several records are inserted by one statement. Its columns are those that at least one record sets,
in the order of the model's fields; a record that leaves one of them unset has the dialect's
placeholder there.
-/

namespace SqlCompose

/-- The contents that a record sets, by field name. -/
abbrev Row := OrderedMap Content

namespace Composer

/-- The content of a field in a new row: the changed value, or the default. -/
def insertContent (c : Composer) (opts : Options) (record : Record) (f : Field) :
    Except Error (Option Content) :=
  match record.changedValue? f.name with
  | some v => return some (.value v)
  | none =>
      match f.default with
      | some (.value v) => return some (.value v)
      | some (.literal literal) => do
          return some (.raw ((← c.expr opts literal).text c.dialect))
      | some (.computed _) => return c.computedContent f (some record) .insert
      | none => return none

/-- Adds the content of a field to a row. -/
def fillRow (c : Composer) (opts : Options) (record : Record) (row : Row) (f : Field) :
    Except Error Row := do
  match ← c.insertContent opts record f with
  | some content => return row.insert f.name content
  | none => return row

/-- The contents that a record sets. -/
def insertRow (c : Composer) (opts : Options) (m : Model) (record : Record) : Except Error Row := do
  checkRecord m record
  m.storedFields.foldlM (c.fillRow opts record) .empty

/-- The cell of a row in a column. -/
def rowCell (row : Row) (f : Field) : Sql.Cell :=
  match row.get? f.name with
  | some content => content.cell f.type
  | none => .unset

/-- The fields that at least one of several rows sets. -/
def setFields (m : Model) (rows : List Row) : List Field :=
  m.storedFields.filter fun f => rows.any (·.contains f.name)

/-- The INSERT of several records into a model; there is none if they set nothing. -/
def insertTree (c : Composer) (opts : Options) (model : String) (records : List Record) :
    Except Error (Option Sql.Insert) := do
  let m ← c.schema.model model
  let opts := { opts with statement := .insert }
  let rows ← records.mapM (c.insertRow opts m)
  let fields := setFields m rows
  if fields.isEmpty then return none
  else
    let returning ← c.returning m opts
    return some
      { table := m.table
        columns := fields.map (·.column)
        rows := rows.map fun row => fields.map (rowCell row)
        ending := ⟨c.dialect.insertTail m opts, returning⟩ }

/-- The text of the INSERT of several records. -/
def insert (c : Composer) (opts : Options) (model : String) (records : List Record) :
    Except Error (Option String) := do
  return (← c.insertTree opts model records).map (·.text c.dialect)

end Composer

end SqlCompose
