import SqlCompose.Dialect.Basic
import SqlCompose.Query.Order

/-!
# Expressions of a statement

Columns, literals and compared values, by their meaning. A dialect turns them into text: names in
the tree are unquoted and values uncoerced.
-/

namespace SqlCompose.Sql

/-- A column of a table. Only literals that ask for it are written without quotes. -/
structure Column where
  table : String
  name : String
  quoted : Bool
deriving DecidableEq, Repr

/-- A qualified column, quoted or not. -/
def Column.text (d : Dialect) (c : Column) : String :=
  if c.quoted then d.identifier c.table ++ "." ++ d.identifier c.name
  else c.table ++ "." ++ c.name

/-- An expression that is no value. -/
inductive Expr
  | raw (sql : String)
  | column (c : Column)
  | countAll
  | aggregate (function : Aggregate) (argument : Expr)
  /-- The bare keyword `DISTINCT`. -/
  | distinctAll
  | distinct (argument : Expr)
  | distinctOn (argument : Expr)
deriving DecidableEq, Repr

def Expr.text (d : Dialect) : Expr → String
  | .raw sql => sql
  | .column c => c.text d
  | .countAll => "COUNT(*)"
  | .aggregate function argument => function.sql ++ "(" ++ argument.text d ++ ")"
  | .distinctAll => "DISTINCT"
  | .distinct argument => "DISTINCT " ++ argument.text d
  | .distinctOn argument => "DISTINCT ON(" ++ argument.text d ++ ")"

/-- An entry of a SELECT list. -/
structure Item where
  expr : Expr
  label : Option String
deriving DecidableEq, Repr

/-- An expression with its alias, if it has one. -/
def Item.text (d : Dialect) (item : Item) : String :=
  match item.label with
  | some label => item.expr.text d ++ " AS " ++ d.identifier label
  | none => item.expr.text d

/-- The right side of a comparison: a value, coerced to a type if one is given, or an
expression. -/
inductive Term
  | value (v : Value) (type : Option ColumnType)
  | expr (e : Expr)

def Term.text (d : Dialect) : Term → String
  | .value v type => d.value v type
  | .expr e => e.text d

/-- An entry of an ORDER BY clause. -/
structure OrderTerm where
  expr : Expr
  direction : Direction

def OrderTerm.text (d : Dialect) (term : OrderTerm) : String :=
  term.expr.text d ++ " " ++ term.direction.sql

/-- A row count and the number of rows to skip. -/
structure RowLimit where
  limit : Option Limit := none
  offset : Option Nat := none
deriving DecidableEq, Repr

def RowLimit.text (d : Dialect) (r : RowLimit) : String :=
  (match r.limit with
    | some (.rows n) => " LIMIT " ++ toString n
    | some .unbounded => " LIMIT " ++ d.unboundedLimit
    | none => "") ++
  (match r.offset with
    | some n => " OFFSET " ++ toString n
    | none => "")

/-- Operands joined by connectors; the connector of the first one is not written. -/
def chainText : List (Connector × String) → String
  | [] => ""
  | (_, first) :: rest =>
      rest.foldl (fun text (connector, operand) => text ++ " " ++ connector.sql ++ " " ++ operand)
        first

/-- A keyword and a list, or nothing for an empty list. -/
def clauseText (keyword : String) (entries : List String) : String :=
  if entries.isEmpty then "" else keyword ++ ", ".intercalate entries

end SqlCompose.Sql
