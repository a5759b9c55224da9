import SqlCompose.Select.JoinPlan

/-!
# Result columns

The SELECT list of a query, as a map from the name of each result column to its item: `Model:field`
for fields, the alias or the text for literals. The first item under a name stays. A query starts
from every stored field in scope and applies its projection records; a nested one starts from
nothing and falls back on the field that it points at.
-/

namespace SqlCompose

/-- The items of a SELECT list under the names of the result columns. -/
abbrev ResultColumns := OrderedMap Sql.Item

namespace Composer

/-- A column as an item, which shows its key as alias unless aliases are off. -/
def columnItem (opts : Options) (key : String) (column : Sql.Column) : Sql.Item :=
  ⟨.column column, if opts.noProjectionAliases then none else some key⟩

/-- Adds every stored field of a model. -/
def projectModel (opts : Options) (columns : ResultColumns) (m : Model) : ResultColumns :=
  m.storedFields.foldl
    (fun columns f => columns.insertNew f.fullName (columnItem opts f.fullName (m.column f)))
    columns

/-- Adds a field. -/
def projectField (c : Composer) (opts : Options) (columns : ResultColumns) (ref : FieldRef) :
    Except Error ResultColumns := do
  let column ← c.columnOf ref true
  return columns.insertNew ref.text (columnItem opts ref.text column)

/-- The name of the result column of a literal: its alias, the field of a field literal, or its
text. -/
def literalKey (c : Composer) (opts : Options) (literal : Literal) : Except Error String :=
  match literal.label with
  | some label => return label
  | none =>
      match literal.isField, literal.fieldRef? with
      | true, some ref => return ref.text
      | _, _ => do return (← c.expr opts literal).text c.dialect

/-- Adds an item of a projection record. -/
def projectItem (c : Composer) (opts : Options) (columns : ResultColumns) :
    ProjectionItem → Except Error ResultColumns
  | .field ref => c.projectField opts columns ref
  | .model name => do return projectModel opts columns (← c.schema.model name)
  | .literal literal => do
      let key ← c.literalKey opts literal
      return columns.insertNew key (← c.item opts literal)
  | .raw sql label =>
      return columns.insertNew (label.getD sql)
        ⟨.raw sql, if opts.noProjectionAliases then none else label⟩

/-- Takes an item of a projection record out. -/
def unprojectItem (c : Composer) (opts : Options) (columns : ResultColumns) :
    ProjectionItem → Except Error ResultColumns
  | .field ref => return columns.erase ref.text
  | .model name => do
      let m ← c.schema.model name
      return m.fields.foldl (fun columns f => columns.erase f.fullName) columns
  | .literal literal => do return columns.erase (← c.literalKey opts literal)
  | .raw sql label => return columns.erase (label.getD sql)

/-- Applies a projection record. -/
def applyProjection (c : Composer) (opts : Options) (columns : ResultColumns)
    (projection : Projection) : Except Error ResultColumns :=
  match projection.mode with
  | .replace => projection.items.foldlM (c.projectItem opts) .empty
  | .add => projection.items.foldlM (c.projectItem opts) columns
  | .remove => projection.items.foldlM (c.unprojectItem opts) columns

/-- Adds the field of an order entry, if its model is in scope. -/
def absorbOrder (c : Composer) (opts : Options) (scope : Scope) (columns : ResultColumns)
    (entry : OrderEntry) : Except Error ResultColumns :=
  match entry.expr with
  | .field ref =>
      if scope.contains ref.model then c.projectField opts columns ref else return columns
  | .literal _ => return columns

/-- The result columns of a query. With `absorb` the fields of its ORDER BY clause join them. -/
def resultColumns (c : Composer) (opts : Options) (q : Query) (scope : Scope) (absorb : Bool) :
    Except Error ResultColumns := do
  let stored := scope.models.foldl (projectModel opts) .empty
  let projected ← q.projections.foldlM (c.applyProjection opts) stored
  if absorb then q.order.foldlM (c.absorbOrder opts scope) projected else return projected

/-- The result columns of a nested query, which have no aliases. -/
def nestedColumns (c : Composer) (opts : Options) (q : Query) : Except Error ResultColumns :=
  match q.projections, q.target with
  | [], none => throw (.invalidStatement (.nothingToSelect q.model))
  | [], some target => c.projectField opts.withoutAliases .empty target
  | projections, _ => projections.foldlM (c.applyProjection opts.withoutAliases) .empty

/-- The result columns as written. -/
def columnTexts (c : Composer) (columns : ResultColumns) : OrderedMap String :=
  columns.map (·.text c.dialect)

end Composer

end SqlCompose
