import SqlCompose.Proofs.Filter
import SqlCompose.Proofs.Composition

/-!
# Records of different clauses commute

A query is built record by record, but each clause of a SELECT statement reads the records of its
own family only: the conditions and groups, the projections, the order records, and so on. So the
statement stays the same when records of different families change places. Of LIMIT, OFFSET, HAVING
and DISTINCT only the last record counts, and an order record that replaces leaves nothing of the
ones before it. Records that are overridden in this way may be taken out.
-/

namespace SqlCompose

/-- The families of records. Conditions and groups make up the filter together. -/
inductive ClauseFamily
  | filter
  | projection
  | order
  | groupBy
  | having
  | distinct
  | limit
  | offset
deriving DecidableEq, Repr

def Operation.family : Operation → ClauseFamily
  | .condition _ | .group _ => .filter
  | .project _ => .projection
  | .order _ => .order
  | .groupBy _ => .groupBy
  | .having _ => .having
  | .distinct _ => .distinct
  | .limit _ => .limit
  | .offset _ => .offset

/-- The records of one family, in their order. -/
def recordsOf (k : ClauseFamily) (ops : List Operation) : List Operation :=
  ops.filter fun op => op.family = k

theorem recordsOf_cons (k : ClauseFamily) (op : Operation) (rest : List Operation) :
    recordsOf k (op :: rest) =
      if op.family = k then op :: recordsOf k rest else recordsOf k rest := by
  simp [recordsOf, List.filter_cons]

theorem recordsOf_append (k : ClauseFamily) (ops more : List Operation) :
    recordsOf k (ops ++ more) = recordsOf k ops ++ recordsOf k more := List.filter_append ..

/-- Queries on one model whose records of every family are the same and in the same order. -/
structure Query.SameClauses (q q' : Query) : Prop where
  model : q.model = q'.model
  target : q.target = q'.target
  records : ∀ k, recordsOf k q.ops = recordsOf k q'.ops

/-- Queries that agree on all that the clauses of a SELECT, but the HAVING clause, read of their
records. -/
structure Query.AgreesButHaving (q q' : Query) : Prop where
  model : q.model = q'.model
  target : q.target = q'.target
  filter : recordsOf .filter q.ops = recordsOf .filter q'.ops
  projections : q.projections = q'.projections
  order : q.order = q'.order
  groupBy : q.groupBy = q'.groupBy
  distinct : q.distinct? = q'.distinct?
  limit : q.limit? = q'.limit?
  offset : q.offset? = q'.offset?

/-- Queries that agree on all that the clauses of a SELECT read of their records. -/
structure Query.Agrees (q q' : Query) : Prop extends Query.AgreesButHaving q q' where
  having : q.having? = q'.having?

/-- What is picked comes from records of one family. -/
def PicksFrom {α : Type} (k : ClauseFamily) (pick : Operation → Option α) : Prop :=
  ∀ op a, pick op = some a → op.family = k

namespace Operation

theorem picksFrom_projection? : PicksFrom .projection projection? := by
  intro op a
  cases op <;> simp [projection?, family]

theorem picksFrom_orderClause? : PicksFrom .order orderClause? := by
  intro op a
  cases op <;> simp [orderClause?, family]

theorem picksFrom_having? : PicksFrom .having having? := by
  intro op a
  cases op <;> simp [having?, family]

theorem picksFrom_distinct? : PicksFrom .distinct distinct? := by
  intro op a
  cases op <;> simp [distinct?, family]

theorem picksFrom_limit? : PicksFrom .limit limit? := by
  intro op a
  cases op <;> simp [limit?, family]

theorem picksFrom_offset? : PicksFrom .offset offset? := by
  intro op a
  cases op <;> simp [offset?, family]

end Operation

section Records

variable {α : Type} {pick : Operation → Option α} {k : ClauseFamily}

theorem PicksFrom.filterMap_recordsOf (hpick : PicksFrom k pick) (ops : List Operation) :
    (recordsOf k ops).filterMap pick = ops.filterMap pick := by
  rw [recordsOf, List.filterMap_filter]
  refine List.filterMap_congr fun op _ => ?_
  by_cases hk : op.family = k
  · simp [hk]
  · cases ha : pick op with
    | none => simp
    | some a => exact absurd (hpick op a ha) hk

theorem Query.last?_eq (q : Query) (pick : Operation → Option α) :
    q.last? pick = (q.ops.filterMap pick).getLast? := by
  rw [last?, ← List.head?_filterMap, List.filterMap_reverse, List.head?_reverse]

/-- What is picked depends on the records of its family only. -/
theorem PicksFrom.filterMap_congr (hpick : PicksFrom k pick) {ops ops' : List Operation}
    (h : recordsOf k ops = recordsOf k ops') : ops.filterMap pick = ops'.filterMap pick := by
  rw [← hpick.filterMap_recordsOf, h, hpick.filterMap_recordsOf]

theorem PicksFrom.last?_congr (hpick : PicksFrom k pick) {q q' : Query}
    (h : recordsOf k q.ops = recordsOf k q'.ops) : q.last? pick = q'.last? pick := by
  rw [Query.last?_eq, Query.last?_eq, hpick.filterMap_congr h]

theorem flatMap_groupExprs_recordsOf (ops : List Operation) :
    (recordsOf .groupBy ops).flatMap Operation.groupExprs = ops.flatMap Operation.groupExprs := by
  induction ops with
  | nil => rfl
  | cons op rest ih =>
    rw [recordsOf_cons, List.flatMap_cons, ← ih]
    cases op <;> simp [Operation.family, Operation.groupExprs]

theorem Query.groupBy_congr {q q' : Query}
    (h : recordsOf .groupBy q.ops = recordsOf .groupBy q'.ops) : q.groupBy = q'.groupBy := by
  rw [groupBy, groupBy, ← flatMap_groupExprs_recordsOf, h, flatMap_groupExprs_recordsOf]

end Records

/-- Every accessor of a query reads the records of one family. -/
theorem Query.SameClauses.agrees {q q' : Query} (h : q.SameClauses q') : q.Agrees q' := by
  refine ⟨⟨h.model, h.target, h.records .filter,
    Operation.picksFrom_projection?.filterMap_congr (h.records _), ?_,
    Query.groupBy_congr (h.records _), Operation.picksFrom_distinct?.last?_congr (h.records _),
    Operation.picksFrom_limit?.last?_congr (h.records _),
    Operation.picksFrom_offset?.last?_congr (h.records _)⟩,
    Operation.picksFrom_having?.last?_congr (h.records _)⟩
  rw [Query.order, Query.order, Operation.picksFrom_orderClause?.filterMap_congr (h.records _)]

/-- A later record that leaves nothing of an earlier one. -/
inductive Operation.Overrides : Operation → Operation → Prop
  | limit (rows rows' : Nat) : Overrides (.limit rows) (.limit rows')
  | offset (rows rows' : Nat) : Overrides (.offset rows) (.offset rows')
  | having (q q' : Query) : Overrides (.having q) (.having q')
  | distinct (operand operand' : Option LiteralOperand) :
      Overrides (.distinct operand) (.distinct operand')
  | order (entries : List OrderEntry) (clause : OrderClause) :
      Overrides (.order ⟨.replace, entries⟩) (.order clause)

section Overridden

variable {model : String} {target : Option FieldRef} {before after : List Operation}
  {op later : Operation}

theorem filterMap_without {α : Type} {pick : Operation → Option α} (hpick : pick op = none) :
    (before ++ op :: after).filterMap pick = (before ++ after).filterMap pick := by
  rw [List.filterMap_append, List.filterMap_cons_none hpick, List.filterMap_append]

/-- The last record of a kind is the same without one that a later record overrides. -/
theorem last?_overridden {α : Type} {pick : Operation → Option α} (hlater : later ∈ after)
    (hpick : pick op = none ∨ (pick later).isSome) :
    Query.last? ⟨model, target, before ++ op :: after⟩ pick =
      Query.last? ⟨model, target, before ++ after⟩ pick := by
  rw [Query.last?_eq, Query.last?_eq]
  cases hop : pick op with
  | none => rw [filterMap_without hop]
  | some a =>
    have hsome : (pick later).isSome := hpick.resolve_left (by simp [hop])
    obtain ⟨b, hb⟩ := Option.isSome_iff_exists.mp hsome
    have hmem : b ∈ after.filterMap pick := List.mem_filterMap.mpr ⟨later, hlater, hb⟩
    have hne : after.filterMap pick ≠ [] := List.ne_nil_of_mem hmem
    rw [List.filterMap_append, List.filterMap_append, List.filterMap_cons_some hop,
      List.getLast?_append_of_ne_nil _ hne, List.getLast?_append_of_ne_nil _ (List.cons_ne_nil _ _),
      List.getLast?_cons_of_ne_nil hne]

/-- A clause that replaces makes the entries before it count for nothing. -/
theorem foldl_applyOrder_of_replace {clauses : List OrderClause} {entries : List OrderEntry}
    (h : ⟨.replace, entries⟩ ∈ clauses) (first second : List OrderEntry) :
    clauses.foldl Query.applyOrder first = clauses.foldl Query.applyOrder second := by
  induction clauses generalizing first second with
  | nil => cases h
  | cons clause rest ih =>
    rw [List.foldl_cons, List.foldl_cons]
    rcases List.mem_cons.mp h with rfl | hrest
    · rfl
    · exact ih hrest _ _

theorem order_overridden (hlater : later ∈ after) (h : later.Overrides op) :
    Query.order ⟨model, target, before ++ op :: after⟩ =
      Query.order ⟨model, target, before ++ after⟩ := by
  cases h with
  | limit | offset | having | distinct =>
    rw [Query.order, Query.order, filterMap_without rfl]
  | order entries clause =>
    have hmem : ⟨.replace, entries⟩ ∈ after.filterMap Operation.orderClause? :=
      List.mem_filterMap.mpr ⟨_, hlater, rfl⟩
    simp only [Query.order, List.filterMap_append, List.foldl_append, List.filterMap_cons,
      Operation.orderClause?, List.foldl_cons]
    exact foldl_applyOrder_of_replace hmem _ _

theorem agrees_of_overridden (hlater : later ∈ after) (h : later.Overrides op) :
    Query.Agrees ⟨model, target, before ++ op :: after⟩ ⟨model, target, before ++ after⟩ where
  model := rfl
  target := rfl
  filter := by
    rw [recordsOf_append, recordsOf_append, recordsOf_cons, if_neg]
    cases h <;> simp [Operation.family]
  projections := filterMap_without (by cases h <;> rfl)
  order := order_overridden hlater h
  groupBy := by cases h <;> simp [Query.groupBy, Operation.groupExprs]
  having := last?_overridden hlater (by cases h <;> simp [Operation.having?])
  distinct := last?_overridden hlater (by cases h <;> simp [Operation.distinct?])
  limit := last?_overridden hlater (by cases h <;> simp [Operation.limit?])
  offset := last?_overridden hlater (by cases h <;> simp [Operation.offset?])

end Overridden

/-- The edges of a query come from its conditions and groups. -/
theorem JoinEdge.collect_recordsOf (root : String) (ops : List Operation) :
    collect root (recordsOf .filter ops) = collect root ops := by
  induction ops with
  | nil => rfl
  | cons op rest ih =>
    rw [recordsOf_cons]
    rcases op with condition | ⟨connector, negated, _ | ⟨model, target, inner⟩⟩ | _ | _ | _ | _
    all_goals simp [Operation.family, collect, ih]

namespace Composer

variable (c : Composer) (opts : Options)

/-- The operands of a query come from its conditions and groups. -/
theorem links_recordsOf (ops : List Operation) :
    c.links opts (recordsOf .filter ops) = c.links opts ops := by
  induction ops with
  | nil => rfl
  | cons op rest ih =>
    rw [recordsOf_cons]
    rcases op with condition | ⟨connector, negated, _ | ⟨model, target, inner⟩⟩ | _ | _ | _ | _
    all_goals simp [Operation.family, links, ih]

/-- The HAVING clause is composed from the last HAVING record. -/
theorem havingLinks_eq (q : Query) :
    c.havingLinks opts q.ops = match q.having? with
      | some inner => c.links opts inner.ops
      | none => pure [] := by
  rw [Query.having?, Query.last?_eq]
  induction q.ops with
  | nil => rw [havingLinks, List.filterMap_nil, List.getLast?_nil]
  | cons op rest ih =>
    cases op with
    | having inner =>
      obtain ⟨model, target, ops⟩ := inner
      have hany : rest.any (fun op => op.having?.isSome) ↔
          rest.filterMap Operation.having? ≠ [] := by
        simp [List.filterMap_eq_nil_iff, Option.isSome_iff_ne_none]
      rw [havingLinks, List.filterMap_cons_some (f := Operation.having?) rfl]
      by_cases hlater : rest.filterMap Operation.having? = []
      · rw [if_neg (by rw [hany]; simpa using hlater), hlater, List.getLast?_singleton]
      · rw [if_pos (hany.mpr hlater), List.getLast?_cons_of_ne_nil hlater, ih]
    | condition | group | project | order | groupBy | distinct | limit | offset =>
      rw [havingLinks, List.filterMap_cons_none rfl, ih]
      all_goals nofun

variable {c opts}

section Agreement

variable {q q' : Query} (h : q.AgreesButHaving q')

include h

theorem ofQuery_congr : JoinPlan.ofQuery q = JoinPlan.ofQuery q' := by
  rw [JoinPlan.ofQuery, JoinPlan.ofQuery, ← JoinEdge.collect_recordsOf, h.model, h.filter,
    JoinEdge.collect_recordsOf]

theorem scope_congr (plan : JoinPlan) : c.scope q plan = c.scope q' plan := by
  rw [scope, scope, h.model]

theorem clauseOptions_congr (opts : Options) :
    c.clauseOptions opts q = c.clauseOptions opts q' := by
  funext columns
  rw [clauseOptions, clauseOptions, h.distinct]

theorem links_congr (opts : Options) : c.links opts q.ops = c.links opts q'.ops := by
  rw [← links_recordsOf, h.filter, links_recordsOf]

theorem listedColumns_congr (opts : Options) (scope : Scope) (support : OrderSupport) :
    c.listedColumns opts q scope support = c.listedColumns opts q' scope support := by
  have hnested : c.nestedColumns opts q = c.nestedColumns opts q' := by
    rw [nestedColumns, nestedColumns, h.projections, h.target, h.model]
  simp only [listedColumns, hnested, resultColumns, h.projections, h.order, h.groupBy]

theorem groupExprs_congr (opts : Options) : c.groupExprs opts q = c.groupExprs opts q' := by
  rw [groupExprs, groupExprs, h.groupBy]

theorem orderTerms_congr (opts : Options) (support : OrderSupport) (scope : Scope) :
    c.orderTerms opts support scope q = c.orderTerms opts support scope q' := by
  rw [orderTerms, orderTerms, h.order]

theorem limits_congr (opts : Options) : c.rowLimit opts q = c.rowLimit opts q' := by
  rw [rowLimit, rowLimit, h.limit, h.offset]

/-- A composed statement is the one of every query that agrees and whose HAVING clause is the
same. -/
theorem ComposedFrom.congr {correlation : Option Sql.Correlation} {plan : JoinPlan} {scope : Scope}
    {columns : ResultColumns} {s : Sql.Select}
    (hhaving : ∀ o links, c.havingLinks o q.ops = .ok links → c.havingLinks o q'.ops = .ok links)
    (hs : c.ComposedFrom opts correlation q plan scope columns s) :
    c.ComposedFrom opts correlation q' plan scope columns s := by
  obtain ⟨hplan, hscope, hcolumns, hdistinct, hlist, htable, hjoins, hcorrelation, hfilter, hgroup,
    ⟨links, hlinks, hkept⟩, horder, hrows⟩ := hs
  rw [ofQuery_congr h] at hplan
  rw [scope_congr h] at hscope
  rw [listedColumns_congr h, h.distinct] at hcolumns
  rw [clauseOptions_congr h] at hdistinct hfilter hgroup hlinks horder hrows
  rw [h.distinct] at hdistinct horder
  rw [links_congr h] at hfilter
  rw [groupExprs_congr h] at hgroup
  rw [orderTerms_congr h] at horder
  rw [limits_congr h] at hrows
  refine ⟨hplan, hscope, hcolumns, hdistinct, hlist, htable, hjoins, hcorrelation, hfilter, hgroup,
    ⟨links, ?_, hkept⟩, horder, hrows⟩
  by_cases hempty : s.groupBy.isEmpty
  · rwa [if_pos hempty] at hlinks ⊢
  · rw [if_neg hempty] at hlinks ⊢
    exact hhaving _ _ hlinks

end Agreement

/-- A SELECT statement reads nothing of its records but what the accessors say. -/
theorem selectTree_congr {q q' : Query} (h : q.Agrees q') (opts : Options)
    (correlation : Option Sql.Correlation) :
    c.selectTree opts correlation q = c.selectTree opts correlation q' := by
  have h' := h.toAgreesButHaving
  have hhaving : ∀ opts, c.havingLinks opts q.ops = c.havingLinks opts q'.ops := by
    intro opts
    rw [havingLinks_eq, havingLinks_eq, h.having]
  simp only [selectTree_eq, ofQuery_congr h', scope_congr h', h.distinct, listedColumns_congr h',
    clauseOptions_congr h', links_congr h', hhaving, groupExprs_congr h', orderTerms_congr h',
    limits_congr h']

theorem select_congr {q q' : Query} (h : q.Agrees q') (opts : Options) :
    c.select opts q = c.select opts q' := by
  rw [select, select, selectTree_congr h]

end Composer

/-- The order in which records of different clauses were added has no bearing on a SELECT
statement, its result columns or its refusal. Neither has a record that a later one overrides. -/
theorem clauses_commute (c : Composer) (opts : Options) :
    (∀ q q' : Query, q.SameClauses q' → c.select opts q = c.select opts q') ∧
    ∀ (model : String) (target : Option FieldRef) (before after : List Operation)
        (op later : Operation), later ∈ after → later.Overrides op →
      c.select opts ⟨model, target, before ++ op :: after⟩ =
        c.select opts ⟨model, target, before ++ after⟩ := by
  constructor
  · intro q q' h
    exact Composer.select_congr h.agrees opts
  · intro model target before after op later hlater h
    exact Composer.select_congr (agrees_of_overridden hlater h) opts

/-- The eldest adult, asked for at first as the seven youngest. -/
def eldest : Query :=
  ⟨"Person", none, [
    .limit 7,
    .condition (.of ⟨"Person", "age"⟩ .ge (.value (.int 18))),
    .order ⟨.append, [⟨.field ⟨"Person", "age"⟩, .asc⟩]⟩,
    .project ⟨.replace, [.raw "1" none]⟩,
    .order ⟨.replace, [⟨.field ⟨"Person", "age"⟩, .desc⟩]⟩,
    .limit 1]⟩

/-- The records of `eldest` clause by clause. -/
def eldestByClause : Query :=
  ⟨"Person", none, [
    .project ⟨.replace, [.raw "1" none]⟩,
    .condition (.of ⟨"Person", "age"⟩ .ge (.value (.int 18))),
    .order ⟨.append, [⟨.field ⟨"Person", "age"⟩, .asc⟩]⟩,
    .order ⟨.replace, [⟨.field ⟨"Person", "age"⟩, .desc⟩]⟩,
    .limit 7,
    .limit 1]⟩

theorem clauses_commute_eldest :
    eldest.SameClauses eldestByClause ∧
    people.select {} eldest = people.select {} eldestByClause ∧
    (Operation.limit 1 ∈ eldest.ops.tail ∧ (Operation.limit 1).Overrides (.limit 7)) ∧
    people.select {} eldest = people.select {} ⟨"Person", none, eldest.ops.tail⟩ := by
  have hsame : eldest.SameClauses eldestByClause :=
    ⟨rfl, rfl, fun k => by cases k <;> rfl⟩
  have hlater : Operation.limit 1 ∈ eldest.ops.tail := by simp [eldest]
  have hover : (Operation.limit 1).Overrides (.limit 7) := .limit 1 7
  obtain ⟨hcommute, hdrop⟩ := clauses_commute people {}
  exact ⟨hsame, hcommute _ _ hsame, ⟨hlater, hover⟩, hdrop "Person" none [] _ _ _ hlater hover⟩

end SqlCompose
