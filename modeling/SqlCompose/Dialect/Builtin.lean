import SqlCompose.Dialect.Basic

/-!
# Built-in dialects

PostgreSQL, SQLite and MySQL.
-/

namespace SqlCompose

namespace Dialect

/-- Truth values are keywords. -/
def postgresqlLexicon : Lexicon where
  identifierQuote := '"'
  escapesBackslash := false
  trueText := "TRUE"
  falseText := "FALSE"
  bytesOpen := "'\\x"

/-- Truth values are integers. -/
def sqliteLexicon : Lexicon where
  identifierQuote := '"'
  escapesBackslash := false
  trueText := "1"
  falseText := "0"
  bytesOpen := "X'"

/-- Names stand between grave accents, and the backslash escapes. -/
def mysqlLexicon : Lexicon where
  identifierQuote := '\x60'
  escapesBackslash := true
  trueText := "TRUE"
  falseText := "FALSE"
  bytesOpen := "X'"

def sqliteCapability : Capability where
  returning := true
  alterColumn := false
  modifyColumn := false
  distinctOn := false
  truncate := false
  concurrentIndex := false
  dropIndexOnTable := false
  createIndexIfNotExists := true
  fullJoin := true

def postgresqlCapability : Capability where
  returning := true
  alterColumn := true
  modifyColumn := false
  distinctOn := true
  truncate := true
  concurrentIndex := true
  dropIndexOnTable := false
  createIndexIfNotExists := true
  fullJoin := true

def mysqlCapability : Capability where
  returning := false
  alterColumn := true
  modifyColumn := true
  distinctOn := false
  truncate := true
  concurrentIndex := false
  dropIndexOnTable := true
  createIndexIfNotExists := false
  fullJoin := false

/-- A type with two parameters. -/
def withScale (name : String) (precision scale : Nat) : String :=
  name ++ "(" ++ toString precision ++ ", " ++ toString scale ++ ")"

/-- A text type with a length. -/
def varcharName (length : Nat) : String := "VARCHAR(" ++ toString length ++ ")"

/-- Generated integers have types of their own. -/
def postgresqlType (f : Field) : String :=
  match f.type with
  | .boolean => "BOOLEAN"
  | .integer size =>
      let (small, medium, big) :=
        if f.autoIncrement then ("SMALLSERIAL", "SERIAL", "BIGSERIAL")
        else ("SMALLINT", "INTEGER", "BIGINT")
      if size = 1 ∨ size = 2 then small else if size = 3 ∨ size = 4 then medium else big
  | .float size => if size ≤ 4 then "REAL" else "DOUBLE PRECISION"
  | .numeric precision scale => withScale "NUMERIC" precision scale
  | .text => "TEXT"
  | .varchar length => varcharName length
  | .blob => "BYTEA"
  | .uuid => "UUID"
  | .date => "DATE"
  | .time => "TIME"
  | .datetime => "TIMESTAMP WITH TIME ZONE"
  | .json => "JSONB"
  | .custom name => name

/-- Types say little more than an affinity. -/
def sqliteType (f : Field) : String :=
  match f.type with
  | .boolean => "BOOLEAN"
  | .integer _ => "INTEGER"
  | .float _ => "REAL"
  | .numeric _ _ => "NUMERIC"
  | .text | .uuid | .json => "TEXT"
  | .varchar length => varcharName length
  | .blob => "BLOB"
  | .date => "DATE"
  | .time => "TIME"
  | .datetime => "DATETIME"
  | .custom name => name

def mysqlType (f : Field) : String :=
  match f.type with
  | .boolean => "BOOLEAN"
  | .integer size =>
      if size = 1 then "TINYINT"
      else if size = 2 then "SMALLINT"
      else if size = 3 ∨ size = 4 then "INT"
      else "BIGINT"
  | .float size => if size ≤ 4 then "FLOAT" else "DOUBLE"
  | .numeric precision scale => withScale "DECIMAL" precision scale
  | .text => "TEXT"
  | .varchar length => varcharName length
  | .blob => "BLOB"
  | .uuid => "CHAR(36)"
  | .date => "DATE"
  | .time => "TIME"
  | .datetime => "DATETIME"
  | .json => "JSON"
  | .custom name => name

/-- A SELECT DISTINCT is ordered by columns of its SELECT list only. -/
def postgresql : Dialect where
  name := "PostgreSQL"
  capability := postgresqlCapability
  identifier := postgresqlLexicon.identifier
  value v type := postgresqlLexicon.value type v
  normalize f := f.type.normalize
  typeName := postgresqlType
  orderSupport o :=
    if o.statement = .select then if o.distinct then .projectedOnly else .yes else .no
  limitSupport o := o.statement = .select
  unboundedLimit := "ALL"
  autoIncrement := none
  likePattern := id
  comparisonTail _ _ := none
  allowsUnprojectedOrder _ := false
  insertTail _ _ := none
  updateTail _ _ := none
  placeholder := "DEFAULT"
  primaryKeyConstraint table := table ++ "_pkey"
  dropsKeyByName := true

/-- There is no `DEFAULT` in a list of values. -/
def sqlite : Dialect where
  name := "SQLite"
  capability := sqliteCapability
  identifier := sqliteLexicon.identifier
  value v type := sqliteLexicon.value type v
  normalize f := f.type.normalize
  typeName := sqliteType
  orderSupport o := if o.statement = .select then .yes else .no
  limitSupport o := o.statement = .select
  unboundedLimit := "-1"
  autoIncrement := some "AUTOINCREMENT"
  likePattern := id
  comparisonTail _ _ := none
  allowsUnprojectedOrder _ := false
  insertTail _ _ := none
  updateTail _ _ := none
  placeholder := "NULL"
  primaryKeyConstraint table := table ++ "_pkey"
  dropsKeyByName := true

/-- UPDATE and DELETE of a single table take an order and a limit. -/
def mysql : Dialect where
  name := "MySQL"
  capability := mysqlCapability
  identifier := mysqlLexicon.identifier
  value v type := mysqlLexicon.value type v
  normalize f := f.type.normalize
  typeName := mysqlType
  orderSupport o :=
    match o.statement with
    | .select | .update | .delete => .yes
    | .insert | .ddl => .no
  limitSupport o :=
    match o.statement with
    | .select | .update | .delete => true
    | .insert | .ddl => false
  unboundedLimit := "18446744073709551615"
  autoIncrement := some "AUTO_INCREMENT"
  likePattern := id
  comparisonTail _ _ := none
  allowsUnprojectedOrder _ := false
  insertTail _ _ := none
  updateTail _ _ := none
  placeholder := "DEFAULT"
  primaryKeyConstraint table := table ++ "_pkey"
  dropsKeyByName := false

/-- The dialects that come with the library. -/
inductive IsBuiltin : Dialect → Prop
  | postgresql : IsBuiltin postgresql
  | sqlite : IsBuiltin sqlite
  | mysql : IsBuiltin mysql

theorem postgresql_spelledBy : postgresql.SpelledBy postgresqlLexicon :=
  ⟨fun _ => rfl, fun _ _ => rfl, fun _ _ => rfl⟩

theorem sqlite_spelledBy : sqlite.SpelledBy sqliteLexicon :=
  ⟨fun _ => rfl, fun _ _ => rfl, fun _ _ => rfl⟩

theorem mysql_spelledBy : mysql.SpelledBy mysqlLexicon :=
  ⟨fun _ => rfl, fun _ _ => rfl, fun _ _ => rfl⟩

end Dialect

end SqlCompose
