import SqlCompose.Query.Basic

/-!
# Equality of queries

Two queries are equal when they agree record by record. Values compare as values do, so a query
that mentions a NaN differs from itself.
-/

namespace SqlCompose

/-- Equality of lists under an equality of entries. -/
def equalBy {α : Type} (eq : α → α → Bool) : List α → List α → Bool
  | [], [] => true
  | a :: as, b :: bs => eq a b && equalBy eq as bs
  | _, _ => false

/-- Equality of projection items. -/
def ProjectionItem.equal : ProjectionItem → ProjectionItem → Bool
  | .field a, .field b => a == b
  | .model a, .model b => a == b
  | .literal a, .literal b => a.equal b
  | .raw s a, .raw t b => s == t && a == b
  | _, _ => false

/-- Equality of projection records. -/
def Projection.equal (a b : Projection) : Bool :=
  a.mode == b.mode && equalBy ProjectionItem.equal a.items b.items

/-- Equality of order records. -/
def OrderClause.equal (a b : OrderClause) : Bool :=
  a.mode == b.mode && equalBy OrderEntry.equal a.entries b.entries

/-- Equality of what a DISTINCT record is distinct on. -/
def equalDistinct : Option LiteralOperand → Option LiteralOperand → Bool
  | none, none => true
  | some a, some b => a.equal b
  | _, _ => false

mutual

/-- Equality of queries. -/
def Query.equal : Query → Query → Bool
  | ⟨model, target, ops⟩, other =>
      model == other.model && target == other.target && equalOps ops other.ops

/-- Equality of records one after the other. -/
def equalOps : List Operation → List Operation → Bool
  | [], [] => true
  | a :: as, b :: bs => a.equal b && equalOps as bs
  | _, _ => false

/-- Equality of records. -/
def Operation.equal : Operation → Operation → Bool
  | .condition a, .condition b => a.equal b
  | .group a, .group b => a.equal b
  | .project a, .project b => a.equal b
  | .order a, .order b => a.equal b
  | .groupBy a, .groupBy b => equalBy OrderExpr.equal a b
  | .having a, .having b => a.equal b
  | .distinct a, .distinct b => equalDistinct a b
  | .limit a, .limit b => a == b
  | .offset a, .offset b => a == b
  | _, _ => false

/-- Equality of conditions. -/
def Condition.equal : Condition → Condition → Bool
  | ⟨field, op, value, negate, connector, quantifier, join⟩, other =>
      field == other.field && op == other.op && value.equal other.value &&
        negate == other.negate && connector == other.connector &&
        quantifier == other.quantifier && join == other.join

/-- Equality of operands. -/
def Operand.equal : Operand → Operand → Bool
  | .value a, .value b => a.equal b
  | .field a, .field b => a == b
  | .literal a, .literal b => a.equal b
  | .query a, .query b => a.equal b
  | _, _ => false

/-- Equality of groups. -/
def Group.equal : Group → Group → Bool
  | ⟨connector, negated, query⟩, other =>
      connector == other.connector && negated == other.negated &&
        equalGrouped query other.query

/-- Equality of the queries of groups. -/
def equalGrouped : Option Query → Option Query → Bool
  | none, none => true
  | some a, some b => a.equal b
  | _, _ => false

end

end SqlCompose
