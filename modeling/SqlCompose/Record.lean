import SqlCompose.OrderedMap
import SqlCompose.Value

/-!
# Records

A record is one row in the application's hands: the values assigned to its fields and the values
last read from or written to the database. Their difference is what a statement has to write.
-/

namespace SqlCompose

/-- The values of one row, current and persisted. -/
structure Record where
  model : String
  values : OrderedMap Value
  persisted : OrderedMap Value

/-- A field whose current value is not the persisted one; `previous` is missing when the field
was never persisted. -/
structure Change where
  field : String
  previous : Option Value
  current : Value

namespace Record

/-- A row that was never persisted. -/
def new (model : String) : Record := ⟨model, .empty, .empty⟩

/-- A row read from the database. -/
def loaded (model : String) (values : List (String × Value)) : Record :=
  ⟨model, .ofList values, .ofList values⟩

/-- Assigns a value to a field. -/
def set (r : Record) (field : String) (value : Value) : Record :=
  { r with values := r.values.insert field value }

/-- The current value of a field. -/
def get? (r : Record) (field : String) : Option Value := r.values.get? field

/-- Takes the current values as persisted. -/
def markPersisted (r : Record) : Record := { r with persisted := r.values }

/-- The change of a field with a current value, if it differs from the persisted one. -/
def changeOf (r : Record) (field : String) (current : Value) : Option Change :=
  let previous := r.persisted.get? field
  if previous.any (·.equal current) then none else some ⟨field, previous, current⟩

/-- The fields to write, in the order of their first assignment. -/
def changes (r : Record) : List Change :=
  r.values.entries.filterMap fun (field, current) => r.changeOf field current

/-- The current value of a field that has to be written. -/
def changedValue? (r : Record) (field : String) : Option Value :=
  (r.changes.find? fun change => change.field == field).map Change.current

/-- Whether there is anything to write. -/
def isDirty (r : Record) : Bool := !r.changes.isEmpty

/-- Equality of records: assignment order does not count. -/
def equal (a b : Record) : Bool :=
  a.model == b.model && a.values.sameEntries Value.equal b.values &&
    a.persisted.sameEntries Value.equal b.persisted

end Record

end SqlCompose
