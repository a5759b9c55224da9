import SqlCompose.Define.Column
import SqlCompose.Define.Index

/-!
# Tables

CREATE TABLE declares every stored field, then a primary key of several columns, then the
references. Its indexes are statements of their own, one for each name. The other statements act on
a table or on one of its columns.
-/

namespace SqlCompose

namespace Composer

/-- The constraint of a field that refers to another one. -/
def foreignKeyConstraint (c : Composer) (f : Field) :
    Except Error (Option Sql.ForeignKeyConstraint) :=
  match f.foreignKey with
  | none => return none
  | some key => do
      let (m, target) ← c.schema.resolve key.target
      return some ⟨f.column, m.table, target.column, key.onDelete, key.onUpdate⟩

/-- The stored fields of the primary key. -/
def keyFields (m : Model) : List Field := m.primaryKeys.filter fun f => !f.isVirtual

/-- The table of a model. -/
def createTableTree (c : Composer) (opts : Options) (model : String) :
    Except Error Sql.CreateTable := do
  let m ← c.schema.model model
  let opts := { opts with statement := .ddl }
  let keys := keyFields m
  let inlineKey := keys.length == 1
  let columns ← m.storedFields.mapM (c.columnDefinition opts inlineKey)
  let references ← m.storedFields.mapM c.foreignKeyConstraint
  return {
    table := m.table
    ifNotExists := opts.ifNotExists
    columns := columns
    primaryKey := if inlineKey then [] else keys.map (·.column)
    foreignKeys := references.filterMap id
    newlines := opts.newlines }

/-- The text of CREATE TABLE. -/
def createTable (c : Composer) (opts : Options) (model : String) : Except Error String := do
  return (← c.createTableTree opts model).text c.dialect

/-- The fields covered by each index that a model declares. Columns that refer to other tables
have none. -/
def declaredIndexes (m : Model) : List (List String) :=
  (m.storedFields.filter fun f => !f.isForeignKey).flatMap fun f =>
    f.indexes.map (·.fieldNames f.name)

/-- The indexes over lists of fields, of those with one name the first; `seen` holds the names so
far. -/
def createIndexes (c : Composer) (opts : Options) (m : Model) (seen : List String) :
    List (List String) → Except Error (List Sql.CreateIndex)
  | [] => return []
  | fields :: rest => do
      let name ← c.indexName m fields
      if seen.contains name then c.createIndexes opts m seen rest
      else
        let index ← c.createIndexTree opts m.name fields
        return index :: (← c.createIndexes opts m (seen ++ [name]) rest)

/-- The texts of CREATE TABLE and of CREATE INDEX for every index of a model. -/
def createTableStatements (c : Composer) (opts : Options) (model : String) :
    Except Error (List String) := do
  let table ← c.createTable opts model
  let m ← c.schema.model model
  let indexes ← c.createIndexes opts m [] (declaredIndexes m)
  return table :: indexes.map (·.text c.dialect)

/-- The statement that removes a table. -/
def dropTable (c : Composer) (opts : Options) (model : String) : Except Error String := do
  let m ← c.schema.model model
  return (Sql.TableStatement.drop m.table opts.ifExists opts.cascade).text c.dialect

/-- The statement that removes every row of a table. -/
def truncateTable (c : Composer) (opts : Options) (model : String) : Except Error String := do
  let m ← c.schema.model model
  let statement : Sql.TableStatement :=
    if c.dialect.capability.truncate then .truncate m.table opts.cascade else .deleteAll m.table
  return statement.text c.dialect

/-- The definition of a column added to a table. Every key field counts for the question whether
the key is declared with the column. -/
def addedColumn (c : Composer) (opts : Options) (model field : String) :
    Except Error Sql.TableStatement := do
  let m ← c.schema.model model
  let f ← m.field field
  let opts := { opts with statement := .ddl }
  return .addColumn m.table (← c.columnDefinition opts (m.primaryKeys.length == 1) f)

/-- The statement that adds the column of a field. -/
def addColumn (c : Composer) (opts : Options) (model field : String) : Except Error String := do
  return (← c.addedColumn opts model field).text c.dialect

/-- The statement that removes the column of a field. -/
def dropColumn (c : Composer) (opts : Options) (model field : String) : Except Error String := do
  let m ← c.schema.model model
  let f ← m.field field
  return (Sql.TableStatement.dropColumn m.table f.column opts.ifExists opts.cascade).text c.dialect

end Composer

end SqlCompose
