import SqlCompose.Sql.Expr

/-!
# Statements that define tables

Columns, tables and indexes, and the changes of an existing column, as trees.
-/

namespace SqlCompose.Sql

/-- The definition of a column. -/
structure ColumnDefinition where
  column : String
  type : String
  primaryKey : Bool
  /-- The word for generated values, behind `PRIMARY KEY`. -/
  generated : Option String
  unique : Bool
  notNull : Bool
  default : Option String
deriving DecidableEq, Repr

/-- A word after a blank, if it is there. -/
def optionalWord (word : Option String) : String :=
  match word with
  | some word => " " ++ word
  | none => ""

/-- Words that are there if a condition holds. -/
def wordsIf (condition : Bool) (words : String) : String := if condition then words else ""

/-- A DEFAULT clause, if there is a default. -/
def defaultText (default : Option String) : String :=
  match default with
  | some expression => " DEFAULT " ++ expression
  | none => ""

def ColumnDefinition.text (d : Dialect) (c : ColumnDefinition) : String :=
  d.identifier c.column ++ " " ++ c.type ++ wordsIf c.primaryKey " PRIMARY KEY" ++
    optionalWord c.generated ++ wordsIf c.unique " UNIQUE" ++ wordsIf c.notNull " NOT NULL" ++
    defaultText c.default

/-- A reference to a column of another table. -/
structure ForeignKeyConstraint where
  column : String
  table : String
  target : String
  onDelete : Option ReferentialAction
  onUpdate : Option ReferentialAction
deriving DecidableEq, Repr

/-- What happens on an event, if anything is said. -/
def actionText (words : String) (action : Option ReferentialAction) : String :=
  match action with
  | some action => words ++ action.sql
  | none => ""

def ForeignKeyConstraint.text (d : Dialect) (k : ForeignKeyConstraint) : String :=
  "FOREIGN KEY(" ++ d.identifier k.column ++ ") REFERENCES " ++ d.identifier k.table ++ "(" ++
    d.identifier k.target ++ ")" ++ actionText " ON DELETE " k.onDelete ++
    actionText " ON UPDATE " k.onUpdate

/-- A table; `primaryKey` holds the columns of a key declared apart from its columns. -/
structure CreateTable where
  table : String
  ifNotExists : Bool
  columns : List ColumnDefinition
  primaryKey : List String
  foreignKeys : List ForeignKeyConstraint
  /-- Each definition has a line of its own. -/
  newlines : Bool

/-- The definitions of a table: columns, key, references. -/
def CreateTable.definitions (d : Dialect) (t : CreateTable) : List String :=
  t.columns.map (·.text d) ++
    (if t.primaryKey.isEmpty then []
      else ["PRIMARY KEY (" ++ ", ".intercalate (t.primaryKey.map d.identifier) ++ ")"]) ++
    t.foreignKeys.map (·.text d)

def CreateTable.text (d : Dialect) (t : CreateTable) : String :=
  "CREATE TABLE " ++ wordsIf t.ifNotExists "IF NOT EXISTS " ++ d.identifier t.table ++ " " ++
    (if t.newlines then "(\n  " ++ ",\n  ".intercalate (t.definitions d) ++ "\n)"
      else "( " ++ ", ".intercalate (t.definitions d) ++ " )")

/-- A new index. -/
structure CreateIndex where
  name : String
  table : String
  columns : List String
  concurrently : Bool
  ifNotExists : Bool
deriving DecidableEq, Repr

def CreateIndex.text (d : Dialect) (i : CreateIndex) : String :=
  "CREATE INDEX " ++ wordsIf i.concurrently "CONCURRENTLY " ++
    wordsIf i.ifNotExists "IF NOT EXISTS " ++ d.identifier i.name ++ " ON " ++
    d.identifier i.table ++ " (" ++ ", ".intercalate (i.columns.map d.identifier) ++ ")"

/-- An index to drop; some databases want its table. -/
structure DropIndex where
  name : String
  table : Option String
  concurrently : Bool
  ifExists : Bool
  cascade : Bool
deriving DecidableEq, Repr

def DropIndex.text (d : Dialect) (i : DropIndex) : String :=
  "DROP INDEX " ++ wordsIf i.concurrently "CONCURRENTLY " ++ wordsIf i.ifExists "IF EXISTS " ++
    d.identifier i.name ++
    (match i.table with
      | some table => " ON " ++ d.identifier table
      | none => "") ++
    wordsIf i.cascade " CASCADE"

/-- A column restated without its keys. -/
structure RestatedColumn where
  type : String
  notNull : Bool
  default : Option String
  generated : Option String
deriving DecidableEq, Repr

def RestatedColumn.text (r : RestatedColumn) : String :=
  r.type ++ wordsIf r.notNull " NOT NULL" ++ defaultText r.default ++ optionalWord r.generated

/-- A change of one attribute of a column. -/
inductive ColumnChange
  /-- Type, nullability and default together. -/
  | restate (definition : RestatedColumn)
  | setNotNull
  | dropNotNull
  | setDefault (expression : String)
  | dropDefault
  | setType (type : String)
  | addPrimaryKey
  | dropPrimaryKey
  | addUnique (constraint : String)
  | dropUnique (constraint : String)
  | rename (name : String)
deriving DecidableEq, Repr

/-- The action of `ALTER TABLE` for a change of a column. -/
def ColumnChange.text (d : Dialect) (table column : String) : ColumnChange → String
  | .restate definition => "MODIFY COLUMN " ++ d.identifier column ++ " " ++ definition.text
  | .setNotNull => "ALTER COLUMN " ++ d.identifier column ++ " SET NOT NULL"
  | .dropNotNull => "ALTER COLUMN " ++ d.identifier column ++ " DROP NOT NULL"
  | .setDefault expression =>
      "ALTER COLUMN " ++ d.identifier column ++ " SET DEFAULT " ++ expression
  | .dropDefault => "ALTER COLUMN " ++ d.identifier column ++ " DROP DEFAULT"
  | .setType type => "ALTER COLUMN " ++ d.identifier column ++ " TYPE " ++ type
  | .addPrimaryKey => "ADD PRIMARY KEY (" ++ d.identifier column ++ ")"
  | .dropPrimaryKey => d.dropPrimaryKey table
  | .addUnique constraint =>
      "ADD CONSTRAINT " ++ d.identifier constraint ++ " UNIQUE (" ++ d.identifier column ++ ")"
  | .dropUnique constraint => "DROP CONSTRAINT " ++ d.identifier constraint
  | .rename name => "RENAME COLUMN " ++ d.identifier column ++ " TO " ++ d.identifier name

/-- A step of a migration. -/
inductive Migration
  | change (table column : String) (change : ColumnChange)
  | createIndex (index : CreateIndex)
  | dropIndex (index : DropIndex)
deriving DecidableEq, Repr

def Migration.text (d : Dialect) : Migration → String
  | .change table column what =>
      "ALTER TABLE " ++ d.identifier table ++ " " ++ what.text d table column
  | .createIndex index => index.text d
  | .dropIndex index => index.text d

/-- A statement on a whole table or on one of its columns. -/
inductive TableStatement
  | drop (table : String) (ifExists cascade : Bool)
  | truncate (table : String) (cascade : Bool)
  /-- Removes every row where there is no TRUNCATE. -/
  | deleteAll (table : String)
  | addColumn (table : String) (definition : ColumnDefinition)
  | dropColumn (table column : String) (ifExists cascade : Bool)
deriving DecidableEq, Repr

def TableStatement.text (d : Dialect) : TableStatement → String
  | .drop table ifExists cascade =>
      "DROP TABLE " ++ wordsIf ifExists "IF EXISTS " ++ d.identifier table ++
        wordsIf cascade " CASCADE"
  | .truncate table cascade =>
      "TRUNCATE TABLE " ++ d.identifier table ++ wordsIf cascade " CASCADE"
  | .deleteAll table => "DELETE FROM " ++ d.identifier table
  | .addColumn table definition =>
      "ALTER TABLE " ++ d.identifier table ++ " ADD COLUMN " ++ definition.text d
  | .dropColumn table column ifExists cascade =>
      "ALTER TABLE " ++ d.identifier table ++ " DROP COLUMN " ++ wordsIf ifExists "IF EXISTS " ++
        d.identifier column ++ wordsIf cascade " CASCADE"

end SqlCompose.Sql
