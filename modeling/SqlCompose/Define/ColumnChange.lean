import SqlCompose.Define.Table

/-!
# Changes of a column

The statements that turn a column into another one. Attributes are compared one after the other:
nullability, default, type, primary key, uniqueness, indexes, name. Every statement but the last
names the column as it was. Where the dialect restates columns, one statement stands for
nullability, default and type.
-/

namespace SqlCompose

namespace Composer

/-- Refuses a change of a column where the dialect can only rename. -/
def checkAlter (c : Composer) (m : Model) (f : Field) (changed : ColumnAttribute) :
    Except Error Unit :=
  if c.dialect.capability.alterColumn then return ()
  else throw (.unsupportedFeature (.alterColumn c.dialect.name changed m.table f.column))

/-- The changes of an attribute: none if it stays, else the given one if the dialect allows it. -/
def attributeChange (c : Composer) (m : Model) (f : Field) (changed : ColumnAttribute)
    (differs : Bool) (change : Sql.ColumnChange) : Except Error (List Sql.ColumnChange) := do
  if differs then
    c.checkAlter m f changed
    return [change]
  else return []

/-- A column restated without its keys. -/
def restatedColumn (c : Composer) (f : Field) (default : Option String) : Sql.RestatedColumn where
  type := c.dialect.typeName f
  notNull := !f.nullable
  default := default
  generated := if f.autoIncrement then c.dialect.autoIncrement else none

/-- The changes of nullability, default and type. -/
def shapeChanges (c : Composer) (m : Model) (current proposed : Field)
    (currentDefault proposedDefault : Option String) : Except Error (List Sql.ColumnChange) := do
  let nullabilityDiffers := current.nullable != proposed.nullable
  let typeDiffers := c.dialect.typeName current != c.dialect.typeName proposed
  if c.dialect.capability.modifyColumn && (nullabilityDiffers || typeDiffers) then
    return [.restate (c.restatedColumn proposed proposedDefault)]
  else
    let nullability ← c.attributeChange m current .nullability nullabilityDiffers
      (if proposed.nullable then .dropNotNull else .setNotNull)
    let default ← c.attributeChange m current .default (currentDefault != proposedDefault)
      (match proposedDefault with
        | some expression => .setDefault expression
        | none => .dropDefault)
    let type ← c.attributeChange m current .type typeDiffers
      (.setType (c.dialect.typeName proposed))
    return nullability ++ default ++ type

/-- The name of the constraint that makes a column unique. -/
def uniqueConstraint (m : Model) (f : Field) : String := "uq_" ++ m.table ++ "_" ++ f.column

/-- The changes of primary key and uniqueness. -/
def keyChanges (c : Composer) (m : Model) (current proposed : Field) :
    Except Error (List Sql.ColumnChange) := do
  let key ← c.attributeChange m current .primaryKey (current.primaryKey != proposed.primaryKey)
    (if proposed.primaryKey then .addPrimaryKey else .dropPrimaryKey)
  let constraint := uniqueConstraint m current
  let unique ← c.attributeChange m current .uniqueness (current.unique != proposed.unique)
    (if proposed.unique then .addUnique constraint else .dropUnique constraint)
  return key ++ unique

/-- The columns of an index declared on a field, which is itself named by `column`. -/
def declaredColumns (m : Model) (f : Field) (column : String) (declaration : IndexDeclaration) :
    Except Error (List String) :=
  (declaration.fieldNames f.name).mapM fun name =>
    if name = f.name then return column else do return (← m.field name).column

/-- The indexes in which a field takes part, by name. A column that refers to another table has
none. -/
def columnIndexes (c : Composer) (m : Model) (f : Field) (column : String) :
    Except Error (OrderedMap (List String)) :=
  if f.isForeignKey then return .empty
  else
    f.indexes.foldlM
      (fun indexes declaration => do
        let columns ← declaredColumns m f column declaration
        return indexes.insertNew (c.indexNameOver m columns) columns)
      .empty

/-- The indexes to drop and to create. -/
def indexChanges (c : Composer) (opts : Options) (m : Model) (current proposed : Field) :
    Except Error (List Sql.Migration) := do
  let old ← c.columnIndexes m current current.column
  let new ← c.columnIndexes m proposed current.column
  let dropped ← (old.keys.filter fun name => !new.contains name).mapM fun name => do
    return Sql.Migration.dropIndex (← c.dropIndexNamed opts m name)
  let created ← (new.entries.filter fun entry => !old.contains entry.1).mapM fun entry => do
    return Sql.Migration.createIndex (← c.createIndexOver opts m entry.1 entry.2)
  return dropped ++ created

/-- The steps that turn the column of a field into that of another. -/
def alterTree (c : Composer) (opts : Options) (model : String) (current proposed : Field) :
    Except Error (List Sql.Migration) := do
  let m ← c.schema.model model
  let opts := { opts with statement := .ddl }
  let currentDefault ← c.columnDefault opts current
  let proposedDefault ← c.columnDefault opts proposed
  let shape ← c.shapeChanges m current proposed currentDefault proposedDefault
  let keys ← c.keyChanges m current proposed
  let indexes ← c.indexChanges opts m current proposed
  let name : List Sql.ColumnChange :=
    if current.column = proposed.column then [] else [.rename proposed.column]
  let step := Sql.Migration.change m.table current.column
  return shape.map step ++ keys.map step ++ indexes ++ name.map step

/-- The texts of the steps that turn the column of a field into that of another. -/
def alterTable (c : Composer) (opts : Options) (model : String) (current proposed : Field) :
    Except Error (List String) := do
  return (← c.alterTree opts model current proposed).map (·.text c.dialect)

end Composer

end SqlCompose
