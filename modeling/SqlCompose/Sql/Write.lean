import SqlCompose.Sql.Select

/-!
# Statements that write rows

INSERT, UPDATE and DELETE as trees.
-/

namespace SqlCompose.Sql

/-- What is written into a column. -/
inductive Cell
  | value (v : Value) (type : ColumnType)
  /-- Text written as it is. -/
  | raw (sql : String)
  /-- The column is left unset. -/
  | unset
deriving Repr

def Cell.text (d : Dialect) : Cell → String
  | .value v type => d.value v (some type)
  | .raw sql => sql
  | .unset => d.placeholder

/-- Text after a statement, and the columns to return from it. -/
structure Ending where
  tail : Option String := none
  returning : Option (List String) := none

def Ending.text (d : Dialect) (e : Ending) : String :=
  (match e.tail with
    | some tail => " " ++ tail
    | none => "") ++
  (match e.returning with
    | some columns => " RETURNING " ++ ", ".intercalate (columns.map d.identifier)
    | none => "")

/-- An INSERT of several rows, each with a cell for every column. -/
structure Insert where
  table : String
  columns : List String
  rows : List (List Cell)
  ending : Ending

/-- Entries in parentheses. -/
def tupleText (entries : List String) : String := "(" ++ ", ".intercalate entries ++ ")"

def Insert.text (d : Dialect) (s : Insert) : String :=
  "INSERT INTO " ++ d.identifier s.table ++ " " ++ tupleText (s.columns.map d.identifier) ++
    " VALUES " ++ ", ".intercalate (s.rows.map fun row => tupleText (row.map (·.text d))) ++
    s.ending.text d

/-- The rows that an UPDATE or DELETE touches. -/
structure Restriction where
  filter : List Link := []
  orderBy : List OrderTerm := []
  rows : RowLimit := {}

def Restriction.text (d : Dialect) (r : Restriction) : String :=
  whereText none (chainText (linkTexts d r.filter)) ++
    clauseText " ORDER BY " (r.orderBy.map (·.text d)) ++ r.rows.text d

/-- A column and what is written into it. -/
structure Assignment where
  column : String
  cell : Cell

def Assignment.text (d : Dialect) (a : Assignment) : String :=
  d.identifier a.column ++ " = " ++ a.cell.text d

/-- An UPDATE; without a restriction every row is written. -/
structure Update where
  table : String
  assignments : List Assignment
  restriction : Restriction
  ending : Ending

def Update.text (d : Dialect) (s : Update) : String :=
  "UPDATE " ++ d.identifier s.table ++ " SET " ++
    ", ".intercalate (s.assignments.map (·.text d)) ++ s.restriction.text d ++ s.ending.text d

/-- The rows that a DELETE removes. -/
inductive DeleteTarget
  | rows (restriction : Restriction)
  /-- The rows, under an alias, for which a correlated SELECT finds anything. -/
  | matched (label : String) (inner : Select)

/-- A DELETE. -/
structure Delete where
  table : String
  target : DeleteTarget
  ending : Ending

def Delete.text (d : Dialect) (s : Delete) : String :=
  "DELETE FROM " ++ d.identifier s.table ++
    (match s.target with
      | .rows restriction => restriction.text d
      | .matched label inner =>
          " AS " ++ d.identifier label ++ " WHERE EXISTS (" ++ inner.text d ++ ")") ++
    s.ending.text d

end SqlCompose.Sql
