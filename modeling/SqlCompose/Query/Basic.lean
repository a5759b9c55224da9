import SqlCompose.Query.Operator
import SqlCompose.Query.Order
import SqlCompose.Value

/-!
# Queries

A query is a list of records rooted at a model. The order of the records counts: it is the order
of the conditions in the WHERE clause. A condition whose value is a nested query without
conditions of its own is a join; with conditions the nested query is a sub-select.
-/

namespace SqlCompose

/-- The kind of a join. -/
inductive JoinKind
  | inner
  | left
  | right
  | full
  | cross
deriving DecidableEq, Repr, Inhabited

/-- How a model is joined. `outer` adds the word to a left, right or full join. -/
structure JoinSpec where
  kind : JoinKind := .inner
  outer : Bool := false
deriving DecidableEq, Repr, Inhabited

/-- What a projection record does to the projection so far. -/
inductive ProjectionMode
  | replace
  | add
  | remove
deriving DecidableEq, Repr

/-- An entry of a projection record. -/
inductive ProjectionItem
  | field (ref : FieldRef)
  /-- Every stored field of a model. -/
  | model (name : String)
  | literal (inner : Literal)
  /-- Text written as it is. -/
  | raw (sql : String) (label : Option String)

/-- A projection record. -/
structure Projection where
  mode : ProjectionMode
  items : List ProjectionItem

/-- What an order record does to the entries so far. -/
inductive OrderMode
  | replace
  | append
deriving DecidableEq, Repr

/-- An order record. -/
structure OrderClause where
  mode : OrderMode
  entries : List OrderEntry

mutual

/-- A list of records rooted at a model. `target` is the field that a nested query points at. -/
structure Query where
  model : String
  target : Option FieldRef
  ops : List Operation

/-- A record of a query. -/
inductive Operation
  | condition (c : Condition)
  | group (g : Group)
  | project (projection : Projection)
  | order (clause : OrderClause)
  | groupBy (exprs : List OrderExpr)
  | having (q : Query)
  | distinct (operand : Option LiteralOperand)
  | limit (rows : Nat)
  | offset (rows : Nat)

/-- A comparison of a field. -/
structure Condition where
  field : FieldRef
  op : Operator
  value : Operand
  negate : Bool
  connector : Connector
  quantifier : Option Quantifier
  join : Option JoinSpec

/-- The right side of a comparison. -/
inductive Operand
  | value (v : Value)
  | field (ref : FieldRef)
  | literal (inner : Literal)
  | query (q : Query)

/-- Conditions in parentheses. Without a query the record stands for nothing. -/
structure Group where
  connector : Connector
  negated : Bool
  query : Option Query

end

namespace Condition

/-- A condition joined to the ones before it by AND. -/
def of (field : FieldRef) (op : Operator) (value : Operand) : Condition :=
  ⟨field, op, value, false, .and, none, none⟩

/-- A condition that joins the model of another query. -/
def joining (field : FieldRef) (spec : JoinSpec) (nested : Query) : Condition :=
  { of field .eq (.query nested) with join := some spec }

/-- The opposite condition. -/
def toggle (c : Condition) : Condition := { c with negate := !c.negate }

/-- The operator after negation. -/
def effectiveOp (c : Condition) : Operator := if c.negate then c.op.invert else c.op

/-- The nested query a condition compares with. -/
def subQuery? (c : Condition) : Option Query :=
  match c.value with
  | .query q => some q
  | _ => none

end Condition

namespace Query

/-- A query without records. -/
def rooted (model : String) : Query := ⟨model, none, []⟩

/-- Adds a record. -/
def push (q : Query) (op : Operation) : Query := { q with ops := q.ops ++ [op] }

end Query

/-- Whether records hold a condition, inside groups too. -/
def hasConditionIn : List Operation → Bool
  | [] => false
  | .condition _ :: _ => true
  | .group ⟨_, _, some ⟨_, _, inner⟩⟩ :: rest => hasConditionIn inner || hasConditionIn rest
  | _ :: rest => hasConditionIn rest

/-- Whether a query has a condition, inside groups too. -/
def Query.hasCondition (q : Query) : Bool := hasConditionIn q.ops

/-- A condition whose value is a nested query without conditions of its own joins its model. -/
def Condition.isJoinEdge (c : Condition) : Bool :=
  !c.op.isExists &&
    match c.value with
    | .query q => !q.hasCondition
    | _ => false

/-- Whether some condition of the records, inside groups too, has a property. -/
def anyCondition (p : Condition → Bool) : List Operation → Bool
  | [] => false
  | .condition c :: rest => p c || anyCondition p rest
  | .group ⟨_, _, some ⟨_, _, inner⟩⟩ :: rest => anyCondition p inner || anyCondition p rest
  | _ :: rest => anyCondition p rest

namespace Query

/-- Whether some condition, inside groups too, joins a model. -/
def hasJoins (q : Query) : Bool := anyCondition Condition.isJoinEdge q.ops

/-- Whether some condition, inside groups too, does not join a model. -/
def hasFilter (q : Query) : Bool := anyCondition (fun c => !c.isJoinEdge) q.ops

end Query

end SqlCompose
