import SqlCompose.Composer
import SqlCompose.Sql.Definition

/-!
# Indexes

The name of an index is made of the configured stem, the table and the sorted columns, so it does
not depend on the order of declaration.
-/

namespace SqlCompose

/-- The names of the fields that an index declared on a field covers. -/
def IndexDeclaration.fieldNames (own : String) : IndexDeclaration → List String
  | .single => [own]
  | .composite others => own :: others

namespace Composer

/-- The name of an index over columns of a table. -/
def indexNameOver (c : Composer) (m : Model) (columns : List String) : String :=
  c.config.indexStem ++ "_" ++ m.table ++ "_" ++
    "_".intercalate (columns.mergeSort fun a b => a ≤ b)

/-- The columns of the named fields, of which there must be at least one. -/
def indexColumns (m : Model) (fields : List String) : Except Error (List String) :=
  if fields.isEmpty then throw (.invalidStatement (.emptyIndex m.name))
  else fields.mapM fun name => do return (← m.field name).column

/-- The name of the index over the named fields. -/
def indexName (c : Composer) (m : Model) (fields : List String) : Except Error String := do
  return c.indexNameOver m (← indexColumns m fields)

/-- A new index, as far as the dialect supports what the options ask for. -/
def createIndexOver (c : Composer) (opts : Options) (m : Model) (name : String)
    (columns : List String) : Except Error Sql.CreateIndex := do
  if opts.concurrently && !c.dialect.capability.concurrentIndex then
    throw (.unsupportedFeature (.createIndexConcurrently c.dialect.name))
  else if opts.ifNotExists && !c.dialect.capability.createIndexIfNotExists then
    throw (.unsupportedFeature (.createIndexIfNotExists c.dialect.name))
  else return ⟨name, m.table, columns, opts.concurrently, opts.ifNotExists⟩

/-- An index to drop, as far as the dialect supports what the options ask for. -/
def dropIndexNamed (c : Composer) (opts : Options) (m : Model) (name : String) :
    Except Error Sql.DropIndex := do
  if opts.concurrently && !c.dialect.capability.concurrentIndex then
    throw (.unsupportedFeature (.dropIndexConcurrently c.dialect.name))
  else
    let table := if c.dialect.capability.dropIndexOnTable then some m.table else none
    return ⟨name, table, opts.concurrently, opts.ifExists, opts.cascade⟩

/-- The index over the named fields of a model. -/
def createIndexTree (c : Composer) (opts : Options) (model : String) (fields : List String) :
    Except Error Sql.CreateIndex := do
  let m ← c.schema.model model
  let columns ← indexColumns m fields
  c.createIndexOver opts m (c.indexNameOver m columns) columns

/-- The text of CREATE INDEX over the named fields of a model. -/
def createIndex (c : Composer) (opts : Options) (model : String) (fields : List String) :
    Except Error String := do
  return (← c.createIndexTree opts model fields).text c.dialect

/-- The text of DROP INDEX for the index over the named fields of a model. -/
def dropIndex (c : Composer) (opts : Options) (model : String) (fields : List String) :
    Except Error String := do
  let m ← c.schema.model model
  let columns ← indexColumns m fields
  return (← c.dropIndexNamed opts m (c.indexNameOver m columns)).text c.dialect

end Composer

end SqlCompose
