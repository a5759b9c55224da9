import SqlCompose.Select.Statement
import SqlCompose.Write.Content

/-!
# UPDATE statements

An UPDATE assigns the changed fields of a record, and the unchanged ones whose computed default
applies to updates. Conditions, order and limit of a query restrict it.
-/

namespace SqlCompose

namespace Composer

/-- The content that an update puts into a field, if any. -/
def updateContent (c : Composer) (record : Record) (f : Field) : Option Content :=
  match record.changedValue? f.name with
  | some v => some (.value v)
  | none => c.computedContent f (some record) .update

/-- The assignment of a field, if it has content with a text. -/
def assignment (c : Composer) (record : Record) (f : Field) : Option Sql.Assignment :=
  match c.updateContent record f with
  | some content =>
      let cell := content.cell f.type
      if cell.text c.dialect = "" then none else some ⟨f.column, cell⟩
  | none => none

/-- The assignments of a record, in the order of the model's fields. -/
def assignments (c : Composer) (m : Model) (record : Record) : List Sql.Assignment :=
  m.storedFields.filterMap (c.assignment record)

/-- The ORDER BY clause of a statement on one table, where the dialect allows one. -/
def plainOrder (c : Composer) (opts : Options) (q : Query) (scope : Scope) :
    Except Error (List Sql.OrderTerm) :=
  let support := c.dialect.orderSupport opts
  if support.isAllowed then c.orderTerms opts support scope q else return []

/-- The rows that a query restricts an update to. Joins are refused. -/
def updateRestriction (c : Composer) (opts : Options) (m : Model) (q : Query) :
    Except Error Sql.Restriction := do
  if q.hasJoins then throw (.unsupportedFeature (.joinedUpdate m.name))
  else
    let filter ← c.filter opts q
    let scope ← c.scope q (← JoinPlan.ofQuery q)
    let orderBy ← c.plainOrder opts q scope
    let rows ← c.rowLimit opts q
    return ⟨filter, orderBy, rows⟩

/-- The UPDATE of the rows that a query restricts it to; there is none if nothing is assigned. -/
def updateTree (c : Composer) (opts : Options) (model : String) (record : Record)
    (q : Option Query) : Except Error (Option Sql.Update) := do
  let m ← c.schema.model model
  checkRecord m record
  let opts := { opts with statement := .update, noProjectionAliases := true }
  let assignments := c.assignments m record
  if assignments.isEmpty then return none
  else
    let restriction ← match q with
      | some q => c.updateRestriction opts m q
      | none => pure {}
    let returning ← c.returning m opts
    return some
      { table := m.table
        assignments := assignments
        restriction := restriction
        ending := ⟨c.dialect.updateTail m opts, returning⟩ }

/-- The text of the UPDATE of the rows that a query restricts it to. -/
def update (c : Composer) (opts : Options) (model : String) (record : Record) (q : Option Query) :
    Except Error (Option String) := do
  return (← c.updateTree opts model record q).map (·.text c.dialect)

end Composer

end SqlCompose
