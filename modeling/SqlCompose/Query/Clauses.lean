import SqlCompose.Query.Basic

/-!
# Clauses of a query

What the records of a query amount to: the last LIMIT, OFFSET, HAVING and DISTINCT record counts,
GROUP BY records add up, and order records replace or append.
-/

namespace SqlCompose

namespace Operation

def limit? : Operation → Option Nat
  | .limit rows => some rows
  | _ => none

def offset? : Operation → Option Nat
  | .offset rows => some rows
  | _ => none

def having? : Operation → Option Query
  | .having q => some q
  | _ => none

def distinct? : Operation → Option (Option LiteralOperand)
  | .distinct operand => some operand
  | _ => none

def projection? : Operation → Option Projection
  | .project projection => some projection
  | _ => none

def orderClause? : Operation → Option OrderClause
  | .order clause => some clause
  | _ => none

def groupExprs : Operation → List OrderExpr
  | .groupBy exprs => exprs
  | _ => []

end Operation

namespace Query

/-- The last record of a kind. -/
def last? {α : Type} (q : Query) (pick : Operation → Option α) : Option α :=
  q.ops.reverse.findSome? pick

/-- The row count of the last LIMIT record. -/
def limit? (q : Query) : Option Nat := q.last? Operation.limit?

/-- The row count of the last OFFSET record. -/
def offset? (q : Query) : Option Nat := q.last? Operation.offset?

/-- The conditions of the last HAVING record. -/
def having? (q : Query) : Option Query := q.last? Operation.having?

/-- The last DISTINCT record, and inside it what it is distinct on. -/
def distinct? (q : Query) : Option (Option LiteralOperand) := q.last? Operation.distinct?

/-- The projection records in order. -/
def projections (q : Query) : List Projection := q.ops.filterMap Operation.projection?

/-- Applies an order record to the entries so far. -/
def applyOrder (entries : List OrderEntry) (clause : OrderClause) : List OrderEntry :=
  match clause.mode with
  | .replace => clause.entries
  | .append => entries ++ clause.entries

/-- The order entries that remain after all order records. -/
def order (q : Query) : List OrderEntry :=
  (q.ops.filterMap Operation.orderClause?).foldl applyOrder []

/-- The expressions of all GROUP BY records. -/
def groupBy (q : Query) : List OrderExpr := q.ops.flatMap Operation.groupExprs

end Query

end SqlCompose
