import SqlCompose.Dialect.Lexicon
import SqlCompose.Options
import SqlCompose.Query.Operator
import SqlCompose.Schema.Model

/-!
# Dialects

What a database supports and how it spells what it supports. The composer asks a dialect and does
not look into its answers, so that an application may bring a dialect of its own. The built-in ones
spell names and values by a lexicon.
-/

namespace SqlCompose

/-- Features that not every database has. -/
structure Capability where
  /-- `RETURNING` on INSERT, UPDATE and DELETE. -/
  returning : Bool
  /-- Changes of a column's type, nullability, default and constraints. -/
  alterColumn : Bool
  /-- Nullability and type are changed by restating the column. -/
  modifyColumn : Bool
  /-- `DISTINCT ON (...)`. -/
  distinctOn : Bool
  /-- `TRUNCATE TABLE`. -/
  truncate : Bool
  /-- `CREATE INDEX CONCURRENTLY`. -/
  concurrentIndex : Bool
  /-- `DROP INDEX` names the table. -/
  dropIndexOnTable : Bool
  /-- `IF NOT EXISTS` on `CREATE INDEX`. -/
  createIndexIfNotExists : Bool
  /-- `FULL JOIN`. -/
  fullJoin : Bool
deriving DecidableEq, Repr

/-- Whether a statement may be ordered. -/
inductive OrderSupport
  | yes
  | no
  /-- Only by columns of the SELECT list. -/
  | projectedOnly
deriving DecidableEq, Repr

def OrderSupport.isAllowed : OrderSupport → Bool
  | .no => false
  | .yes | .projectedOnly => true

/-- What a database supports and how it spells it. -/
structure Dialect where
  /-- The name in error messages. -/
  name : String
  capability : Capability
  /-- A quoted name. -/
  identifier : String → String
  /-- The literal of a value. Of the field that it is for, if there is one, only the type counts. -/
  value : Value → Option ColumnType → String
  /-- The entries of a list that is compared with a field. -/
  normalize : Field → List Value → List Value
  /-- The type of a column. -/
  typeName : Field → String
  orderSupport : Options → OrderSupport
  /-- Whether a statement may be limited. -/
  limitSupport : Options → Bool
  /-- The row count of a limit that does not limit. -/
  unboundedLimit : String
  /-- Follows `PRIMARY KEY` where the type alone does not say that values are generated. -/
  autoIncrement : Option String
  /-- The pattern of a LIKE comparison. -/
  likePattern : String → String
  /-- Follows a comparison, such as a `COLLATE` clause. -/
  comparisonTail : Field → Operator → Option String
  /-- A field that may be ordered by even outside the SELECT list. -/
  allowsUnprojectedOrder : Field → Bool
  insertTail : Model → Options → Option String
  updateTail : Model → Options → Option String
  /-- Stands for a column that one row of several leaves unset. -/
  placeholder : String
  /-- The name of the primary key constraint of a table. -/
  primaryKeyConstraint : String → String
  /-- A primary key is dropped by the name of its constraint. -/
  dropsKeyByName : Bool
  /-- The action that drops the primary key of a table where it is not dropped by name. -/
  dropKey : String → String := fun _ => "DROP PRIMARY KEY"

namespace Dialect

/-- The action of `ALTER TABLE` that removes the primary key of a table. -/
def dropPrimaryKey (d : Dialect) (table : String) : String :=
  if d.dropsKeyByName then "DROP CONSTRAINT " ++ d.identifier (d.primaryKeyConstraint table)
  else d.dropKey table

/-- Names and values are spelled by a lexicon, and lists are normalised for the type of the field
that they are compared with. -/
structure SpelledBy (d : Dialect) (lexicon : Lexicon) : Prop where
  identifier_eq : ∀ name, d.identifier name = lexicon.identifier name
  value_eq : ∀ v type, d.value v type = lexicon.value type v
  normalize_eq : ∀ f values, d.normalize f values = f.type.normalize values

end Dialect

end SqlCompose
