import SqlCompose.Composer
import SqlCompose.Query.Clauses
import SqlCompose.Sql.Select

/-!
# Join plans

The join conditions of a query are the edges between the root model and the models it joins. A
plan groups the edges by joined model and puts the models in an order in which every model follows
the models that its edges refer to; of several possible ones the first to appear comes first.
-/

namespace SqlCompose

/-- A join condition: `left` belongs to a model in scope, `right` to the model being joined. -/
structure JoinEdge where
  spec : JoinSpec
  left : FieldRef
  op : Operator
  right : FieldRef
  connector : Connector
deriving DecidableEq, Repr

/-- The edges that join one model, in order of appearance. -/
structure JoinGroup where
  model : String
  edges : List JoinEdge
deriving DecidableEq, Repr

/-- The joined models in the order in which they are introduced. -/
structure JoinPlan where
  groups : List JoinGroup
deriving DecidableEq, Repr

namespace JoinEdge

/-- The edge of a join condition. Where the nested query points at the root model, its side is the
left one. -/
def ofCondition (root : String) (c : Condition) (nested : Query) : Except Error JoinEdge :=
  match nested.target with
  | none => throw (.invalidStatement (.joinWithoutTarget nested.model c.field))
  | some target =>
      let op := c.effectiveOp
      let (left, right) := if target.model = root then (target, c.field) else (c.field, target)
      if op.isLike then throw (.invalidOperator op.name c.field.text (.comparesColumns target))
      else if right.model = root then throw (.invalidStatement (.selfJoin root))
      else return ⟨c.join.getD {}, left, op, right, c.connector⟩

/-- The edges of the records of a query, those inside groups in their place. -/
def collect (root : String) : List Operation → Except Error (List JoinEdge)
  | [] => return []
  | .condition c :: rest =>
      match c.isJoinEdge, c.subQuery? with
      | true, some nested => do
          let edge ← ofCondition root c nested
          return edge :: (← collect root rest)
      | _, _ => collect root rest
  | .group ⟨_, _, some ⟨_, _, inner⟩⟩ :: rest => do
      let edges ← collect root inner
      return edges ++ (← collect root rest)
  | _ :: rest => collect root rest
termination_by ops => sizeOf ops
decreasing_by
  all_goals simp only [List.cons.sizeOf_spec, Operation.condition.sizeOf_spec,
    Operation.group.sizeOf_spec, Group.mk.sizeOf_spec, Option.some.sizeOf_spec,
    Query.mk.sizeOf_spec]
  all_goals omega

/-- The edges by joined model, in order of appearance. -/
def groupByModel (edges : List JoinEdge) : OrderedMap (List JoinEdge) :=
  edges.foldl (fun groups edge => groups.push edge.right.model edge) .empty

end JoinEdge

namespace JoinPlan

/-- A joined model and the joined models that have to come before it. -/
structure Pending where
  model : String
  needs : List String
deriving DecidableEq, Repr

/-- What a joined model waits for: the other models that its edges refer to, which have to be
joined too. -/
def pending (root : String) (groups : OrderedMap (List JoinEdge)) (model : String)
    (edges : List JoinEdge) : Except Error Pending := do
  let others := (edges.map (·.left.model)).filter fun left => left != root && left != model
  match others.find? fun left => !groups.contains left with
  | some left => throw (.invalidStatement (.unjoinedModel left model))
  | none => return ⟨model, others⟩

/-- Whether everything that a model waits for is placed. -/
def Pending.isReady (placed : List String) (p : Pending) : Bool := p.needs.all placed.contains

/-- Places the first ready model again and again, for as many rounds as there are models. When
none is ready the remaining ones wait for each other. -/
def place : Nat → List Pending → List String → Except Error (List String)
  | _, [], placed => return placed
  | 0, waiting, _ => throw (.invalidSchema (.joinCycle (waiting.map (·.model))))
  | rounds + 1, waiting, placed =>
      match waiting.find? (·.isReady placed) with
      | none => throw (.invalidSchema (.joinCycle (waiting.map (·.model))))
      | some next =>
          place rounds (waiting.filter fun p => p.model != next.model) (placed ++ [next.model])

/-- The joined models in the order in which they are introduced. -/
def sortModels (root : String) (groups : OrderedMap (List JoinEdge)) :
    Except Error (List String) := do
  let waiting ← groups.entries.mapM fun (model, edges) => pending root groups model edges
  place waiting.length waiting []

/-- The plan of the joins of a query. -/
def ofQuery (q : Query) : Except Error JoinPlan := do
  let groups := JoinEdge.groupByModel (← JoinEdge.collect q.model q.ops)
  let order ← sortModels q.model groups
  return ⟨order.map fun model => ⟨model, (groups.get? model).getD []⟩⟩

/-- A plan without joins. -/
def isEmpty (plan : JoinPlan) : Bool := plan.groups.isEmpty

end JoinPlan

/-- The models that a statement may name: the root and the joined ones in order. -/
structure Scope where
  root : Model
  joined : List Model

namespace Scope

def models (scope : Scope) : List Model := scope.root :: scope.joined

/-- Whether a model is in scope. -/
def contains (scope : Scope) (model : String) : Bool :=
  scope.models.any fun m => m.name == model

end Scope

namespace Composer

/-- The models of a query and its joins. -/
def scope (c : Composer) (q : Query) (plan : JoinPlan) : Except Error Scope := do
  let root ← c.schema.model q.model
  let joined ← plan.groups.mapM fun group => c.schema.model group.model
  return ⟨root, joined⟩

/-- The comparison of an edge. -/
def edgeComparison (c : Composer) (edge : JoinEdge) : Except Error Sql.ColumnComparison := do
  let left ← c.columnOf edge.left true
  let right ← c.columnOf edge.right true
  return ⟨left, edge.op, right⟩

/-- Refuses a full join where the dialect has none. -/
def checkJoin (c : Composer) (spec : JoinSpec) : Except Error Unit :=
  if spec.kind = .full ∧ ¬ c.dialect.capability.fullJoin then
    throw (.unsupportedFeature (.fullJoin c.dialect.name))
  else return ()

/-- The JOIN clause of a group; the first edge decides how the model is joined. -/
def join (c : Composer) (group : JoinGroup) : Except Error (List Sql.Join) := do
  let m ← c.schema.model group.model
  match group.edges with
  | [] => return []
  | first :: more =>
      let comparison ← c.edgeComparison first
      c.checkJoin first.spec
      let others ← more.mapM fun edge => do return (edge.connector, ← c.edgeComparison edge)
      return [⟨first.spec, m.table, (first.connector, comparison) :: others⟩]

/-- The JOIN clauses of a plan. -/
def joins (c : Composer) (plan : JoinPlan) : Except Error (List Sql.Join) := do
  return (← plan.groups.mapM c.join).flatten

end Composer

end SqlCompose
