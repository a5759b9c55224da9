import SqlCompose.Error
import SqlCompose.Schema.Field

/-!
# Models and schemas

A model is a table and its fields in order of declaration. A schema holds models under their
names, in order of registration.
-/

namespace SqlCompose

/-- A table and its fields. -/
structure Model where
  name : String
  table : String
  fields : List Field

namespace Model

/-- A model without fields, whose table is named by the plural of its name. -/
def named (name : String) : Model := ⟨name, Naming.tableName name, []⟩

/-- Adds a field and takes it over. -/
def addField (m : Model) (f : Field) : Model :=
  { m with fields := m.fields ++ [{ f with model := m.name }] }

/-- The first field with a name. -/
def field? (m : Model) (name : String) : Option Field := m.fields.find? fun f => f.name == name

/-- The field with a name, which has to exist. -/
def field (m : Model) (name : String) : Except Error Field :=
  match m.field? name with
  | some f => .ok f
  | none => .error (.invalidStatement (.unknownField m.name name))

/-- The fields of the primary key. -/
def primaryKeys (m : Model) : List Field := m.fields.filter (·.primaryKey)

/-- The first field of the primary key. -/
def primaryKey? (m : Model) : Option Field := m.fields.find? (·.primaryKey)

/-- The fields with a column. -/
def storedFields (m : Model) : List Field := m.fields.filter fun f => !f.isVirtual

end Model

/-- The models of an application, each under its own name. -/
structure Schema where
  models : OrderedMap Model
  named : ∀ entry ∈ models.entries, entry.2.name = entry.1

namespace Schema

def empty : Schema := ⟨.empty, nofun⟩

/-- The model with a name. -/
def model? (s : Schema) (name : String) : Option Model := s.models.get? name

/-- The model with a name, which has to be registered. -/
def model (s : Schema) (name : String) : Except Error Model :=
  match s.model? name with
  | some m => .ok m
  | none => .error (.invalidStatement (.unknownModel name))

theorem name_of_model {s : Schema} {name : String} {m : Model} (h : s.model name = .ok m) :
    m.name = name := by
  rw [model] at h
  split at h
  · rename_i hm
    cases h
    exact s.named _ (Entries.mem_of_find?_eq_some hm)
  · cases h

/-- Puts a model under its name. -/
def put (s : Schema) (m : Model) : Schema where
  models := s.models.insert m.name m
  named := by
    intro entry hentry
    rcases OrderedMap.mem_entries_insert hentry with hold | rfl
    · exact s.named entry hold
    · rfl

/-- Adds a model, whose name must be new. -/
def register (s : Schema) (m : Model) : Except Error Schema :=
  if s.models.contains m.name then .error (.invalidSchema (.alreadyRegistered m.name))
  else .ok (s.put m)

/-- The model and the field that a reference names. -/
def resolve (s : Schema) (ref : FieldRef) : Except Error (Model × Field) := do
  let m ← s.model ref.model
  let f ← m.field ref.field
  return (m, f)

end Schema

end SqlCompose
