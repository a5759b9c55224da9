import SqlCompose.Naming.Plural
import SqlCompose.Schema.ColumnType
import SqlCompose.Schema.Default

/-!
# Fields

A field of a model: its column, type, keys, indexes and default.
-/

namespace SqlCompose

/-- An index in which a column takes part. -/
inductive IndexDeclaration
  | single
  /-- Together with other fields of the model. -/
  | composite (others : List String)
deriving DecidableEq, Repr

/-- What happens to a row whose referenced row changes or goes. -/
inductive ReferentialAction
  | cascade
  | restrict
  | setNull
  | setDefault
  | noAction
deriving DecidableEq, Repr

def ReferentialAction.sql : ReferentialAction → String
  | cascade => "CASCADE"
  | restrict => "RESTRICT"
  | setNull => "SET NULL"
  | setDefault => "SET DEFAULT"
  | noAction => "NO ACTION"

/-- A reference to a field of another model. -/
structure ForeignKey where
  target : FieldRef
  onDelete : Option ReferentialAction := none
  onUpdate : Option ReferentialAction := none
deriving DecidableEq, Repr

/-- A field of a model. -/
structure Field where
  name : String
  column : String
  /-- The owner; empty for a field that belongs to no model yet. -/
  model : String
  type : ColumnType
  primaryKey : Bool
  autoIncrement : Bool
  unique : Bool
  nullable : Bool
  /-- A virtual field has no column. -/
  isVirtual : Bool
  indexes : List IndexDeclaration
  foreignKey : Option ForeignKey
  default : Option DefaultValue

namespace Field

/-- A nullable field, whose column is named after it. -/
def named (name : String) (type : ColumnType) : Field where
  name := name
  column := Naming.columnName name
  model := ""
  type := type
  primaryKey := false
  autoIncrement := false
  unique := false
  nullable := true
  isVirtual := false
  indexes := []
  foreignKey := none
  default := none

/-- Makes the field part of the primary key, which is never null. -/
def asPrimaryKey (f : Field) : Field := { f with primaryKey := true, nullable := false }

/-- Adds an index. -/
def withIndex (f : Field) (declaration : IndexDeclaration) : Field :=
  { f with indexes := f.indexes ++ [declaration] }

/-- Makes the field refer to another one. -/
def referencing (f : Field) (target : FieldRef) : Field :=
  { f with foreignKey := some { target := target } }

/-- Sets the action on deletion of the referenced row, if the field refers to one. -/
def onDelete (f : Field) (action : ReferentialAction) : Field :=
  { f with foreignKey := f.foreignKey.map fun key => { key with onDelete := some action } }

/-- Sets the action on change of the referenced row, if the field refers to one. -/
def onUpdate (f : Field) (action : ReferentialAction) : Field :=
  { f with foreignKey := f.foreignKey.map fun key => { key with onUpdate := some action } }

/-- The reference to the field. -/
def ref (f : Field) : FieldRef := ⟨f.model, f.name⟩

/-- The name `Model:field`. -/
def fullName (f : Field) : String := f.ref.text

def isForeignKey (f : Field) : Bool := f.foreignKey.isSome

def isIndexed (f : Field) : Bool := !f.indexes.isEmpty

end Field

end SqlCompose
