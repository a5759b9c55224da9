import SqlCompose.Sql.Definition
import SqlCompose.Write.Content

/-!
# Column definitions

What CREATE TABLE and ADD COLUMN say about a column.
-/

namespace SqlCompose

namespace Composer

/-- The text of the default of a column, if it has one. A computed default counts only where the
database is to compute it. -/
def columnDefault (c : Composer) (opts : Options) (f : Field) : Except Error (Option String) :=
  match f.default with
  | some (.value v) => return some (c.dialect.value v (some f.type))
  | some (.literal literal) => do return some ((← c.expr opts literal).text c.dialect)
  | some (.computed _) =>
      return (c.computedContent f none .define).map fun content =>
        (content.cell f.type).text c.dialect
  | none => return none

/-- The definition of a column. `inlineKey` says that a primary key is declared with its column;
such a column is either generated or explicitly not null. -/
def columnDefinition (c : Composer) (opts : Options) (inlineKey : Bool) (f : Field) :
    Except Error Sql.ColumnDefinition := do
  let default ← c.columnDefault opts f
  if f.primaryKey && inlineKey then
    return {
      column := f.column
      type := c.dialect.typeName f
      primaryKey := true
      generated := if f.autoIncrement then c.dialect.autoIncrement else none
      unique := false
      notNull := !f.autoIncrement
      default := default }
  else
    return {
      column := f.column
      type := c.dialect.typeName f
      primaryKey := false
      generated := none
      unique := f.unique && !f.primaryKey
      notNull := !f.nullable
      default := default }

end Composer

end SqlCompose
