import SqlCompose.Query.Basic
import SqlCompose.Sql.Expr

/-!
# SELECT statements as trees

Conditions and SELECT statements, which contain each other. `Select.text` and `linkTexts` print
them for a dialect; nothing but the tree and the dialect decides the text.
-/

namespace SqlCompose.Sql

/-- A comparison of a column without a sub-select. -/
inductive Comparison
  | compare (left : Column) (op : Operator) (right : Term) (tail : Option String)
  /-- `IS` or, negated, `IS NOT`. -/
  | is (left : Column) (negated : Bool) (right : Term) (tail : Option String)
  | inList (left : Column) (negated : Bool) (entries : List Term)

/-- Text that follows a comparison, after a blank. -/
def withTail (text : String) (tail : Option String) : String :=
  match tail with
  | some more => text ++ " " ++ more
  | none => text

def Comparison.text (d : Dialect) : Comparison → String
  | .compare left op right tail =>
      withTail (left.text d ++ " " ++ op.sql ++ " " ++ right.text d) tail
  | .is left negated right tail =>
      withTail (left.text d ++ (if negated then " IS NOT " else " IS ") ++ right.text d) tail
  | .inList left negated entries =>
      left.text d ++ (if negated then " NOT IN (" else " IN (") ++
        ",".intercalate (entries.map (·.text d)) ++ ")"

/-- A comparison of columns in a join. -/
structure ColumnComparison where
  left : Column
  op : Operator
  right : Column
deriving DecidableEq, Repr

def ColumnComparison.text (d : Dialect) (c : ColumnComparison) : String :=
  c.left.text d ++ " " ++ c.op.sql ++ " " ++ c.right.text d

/-- A joined table with its comparisons; the connector of the first one is not written. -/
structure Join where
  spec : JoinSpec
  table : String
  comparisons : List (Connector × ColumnComparison)

/-- The words of a join. Inner and cross joins have no OUTER. -/
def joinWords (spec : JoinSpec) : String :=
  match spec.kind with
  | .inner => "INNER JOIN"
  | .left => if spec.outer then "LEFT OUTER JOIN" else "LEFT JOIN"
  | .right => if spec.outer then "RIGHT OUTER JOIN" else "RIGHT JOIN"
  | .full => if spec.outer then "FULL OUTER JOIN" else "FULL JOIN"
  | .cross => "CROSS JOIN"

def Join.text (d : Dialect) (join : Join) : String :=
  joinWords join.spec ++ " " ++ d.identifier join.table ++ " ON " ++
    chainText (join.comparisons.map fun (connector, comparison) => (connector, comparison.text d))

/-- What a SELECT yields: text given by the caller, or items. -/
inductive SelectList
  | text (sql : String)
  | items (entries : List Item)

def SelectList.sql (d : Dialect) : SelectList → String
  | .text sql => sql
  | .items entries => ", ".intercalate (entries.map (·.text d))

/-- Ties a row of an inner SELECT to the row of the statement around it. -/
structure Correlation where
  outer : Column
  inner : Column
deriving DecidableEq, Repr

def Correlation.text (d : Dialect) (c : Correlation) : String :=
  c.outer.text d ++ " = " ++ c.inner.text d

mutual

/-- An operand of a WHERE or HAVING clause. -/
inductive Predicate
  | comparison (c : Comparison)
  /-- Several comparisons of one column, in parentheses. -/
  | combined (connector : Connector) (parts : List Comparison)
  | inSelect (left : Column) (negated : Bool) (inner : Select)
  | compareSelect (left : Column) (op : Operator) (quantifier : Option Quantifier) (inner : Select)
  | rowExists (negated : Bool) (inner : Select)
  | group (negated : Bool) (body : List Link)

/-- An operand and the connector before it. -/
structure Link where
  connector : Connector
  operand : Predicate

/-- A SELECT statement. Empty lists stand for missing clauses. -/
structure Select where
  distinct : Option Expr
  list : SelectList
  table : String
  joins : List Join
  correlation : Option Correlation
  filter : List Link
  groupBy : List Expr
  having : List Link
  orderBy : List OrderTerm
  rows : RowLimit

end

/-- The WHERE clause: the correlation first, then the filter, in parentheses if both are there. -/
def whereText (correlation : Option String) (filter : String) : String :=
  match correlation with
  | some correlation =>
      if filter = "" then " WHERE " ++ correlation
      else " WHERE " ++ correlation ++ " AND (" ++ filter ++ ")"
  | none => if filter = "" then "" else " WHERE " ++ filter

/-- The HAVING clause of a filter. -/
def havingText (filter : String) : String := if filter = "" then "" else " HAVING (" ++ filter ++ ")"

/-- A joined table after what precedes it. -/
def joinsText (d : Dialect) (joins : List Join) : String :=
  joins.foldl (fun text join => text ++ " " ++ join.text d) ""

mutual

/-- The text of an operand. -/
def Predicate.text (d : Dialect) : Predicate → String
  | .comparison c => c.text d
  | .combined connector parts =>
      "(" ++ (" " ++ connector.sql ++ " ").intercalate (parts.map (·.text d)) ++ ")"
  | .inSelect left negated inner =>
      left.text d ++ (if negated then " NOT IN (" else " IN (") ++ inner.text d ++ ")"
  | .compareSelect left op quantifier inner =>
      left.text d ++ " " ++ op.sql ++ " " ++ (quantifier.map Quantifier.sql).getD "" ++ "(" ++
        inner.text d ++ ")"
  | .rowExists negated inner =>
      (if negated then "NOT EXISTS(" else "EXISTS(") ++ inner.text d ++ ")"
  | .group negated body =>
      (if negated then "NOT (" else "(") ++ chainText (linkTexts d body) ++ ")"

/-- The texts of operands with their connectors. -/
def linkTexts (d : Dialect) : List Link → List (Connector × String)
  | [] => []
  | ⟨connector, operand⟩ :: rest => (connector, operand.text d) :: linkTexts d rest

/-- The text of a SELECT statement. -/
def Select.text (d : Dialect) : Select → String
  | ⟨distinct, list, table, joins, correlation, filter, groupBy, having, orderBy, rows⟩ =>
      "SELECT " ++
        (match distinct with
          | some e => e.text d ++ " "
          | none => "") ++
        list.sql d ++ " FROM " ++ d.identifier table ++ joinsText d joins ++
        whereText (correlation.map (·.text d)) (chainText (linkTexts d filter)) ++
        clauseText " GROUP BY " (groupBy.map (·.text d)) ++
        havingText (chainText (linkTexts d having)) ++
        clauseText " ORDER BY " (orderBy.map (·.text d)) ++
        rows.text d

end

end SqlCompose.Sql
