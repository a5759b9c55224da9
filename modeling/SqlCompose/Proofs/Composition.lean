import SqlCompose.Proofs.Success
import SqlCompose.Select.Statement

/-!
# Composition of SELECT statements

What goes into a SELECT statement is said once, clause by clause, by `ComposedFrom`. Statements
are composed along their query: the records one after the other, the groups and the HAVING query
inside them, and the queries that conditions compare with. `Query.composition_induct` follows that
recursion. Options change on the way, so what is proved by it is stated for all options.
-/

namespace SqlCompose

/-- What a record brings to the induction: its condition, and the records of its group or of its
HAVING query. -/
structure Operation.Parts (P : Condition → Prop) (L : List Operation → Prop)
    (op : Operation) : Prop where
  condition : ∀ {c : Condition}, op = .condition c → P c
  group : ∀ {connector : Connector} {negated : Bool} {q : Query},
    op = .group ⟨connector, negated, some q⟩ → L q.ops
  having : ∀ {q : Query}, op = .having q → L q.ops

section Induction

variable {Q : Query → Prop} {L : List Operation → Prop} {P : Condition → Prop}

/-- What an induction over queries has to show: that each part inherits from those inside it. -/
structure Query.Inherits (Q : Query → Prop) (L : List Operation → Prop)
    (P : Condition → Prop) : Prop where
  query : ∀ model target ops, L ops → Q ⟨model, target, ops⟩
  condition : ∀ c : Condition, (∀ nested, c.value = .query nested → Q nested) → P c
  nil : L []
  cons : ∀ op rest, op.Parts P L → L rest → L (op :: rest)

mutual

theorem Query.composition_query (h : Query.Inherits Q L P) : ∀ q : Query, Q q ∧ L q.ops
  | ⟨model, target, ops⟩ =>
      have hops := Query.composition_ops h ops
      ⟨h.query model target ops hops, hops⟩

theorem Query.composition_ops (h : Query.Inherits Q L P) : ∀ ops : List Operation, L ops
  | [] => h.nil
  | op :: rest =>
      h.cons op rest (Query.composition_operation h op) (Query.composition_ops h rest)

theorem Query.composition_operation (h : Query.Inherits Q L P) :
    ∀ op : Operation, op.Parts P L
  | .condition c => ⟨fun heq => Operation.condition.inj heq ▸ Query.composition_condition h c,
      nofun, nofun⟩
  | .group ⟨_, _, some q⟩ => by
      have hops := (Query.composition_query h q).2
      exact ⟨nofun, fun heq => by cases heq; exact hops, nofun⟩
  | .having q => by
      have hops := (Query.composition_query h q).2
      exact ⟨nofun, nofun, fun heq => by cases heq; exact hops⟩
  | .group ⟨_, _, none⟩ => ⟨nofun, nofun, nofun⟩
  | .project _ | .order _ | .groupBy _ | .distinct _ | .limit _ | .offset _ =>
      ⟨nofun, nofun, nofun⟩

theorem Query.composition_condition (h : Query.Inherits Q L P) : ∀ c : Condition, P c
  | ⟨field, op, .query nested, negate, connector, quantifier, join⟩ => by
      have hnested := (Query.composition_query h nested).1
      refine h.condition _ fun other heq => ?_
      cases heq
      exact hnested
  | ⟨_, _, .value _, _, _, _, _⟩ | ⟨_, _, .field _, _, _, _, _⟩
  | ⟨_, _, .literal _, _, _, _, _⟩ => h.condition _ nofun

end

/-- Induction over queries, record lists and conditions at once. -/
theorem Query.composition_induct
    (hquery : ∀ model target ops, L ops → Q ⟨model, target, ops⟩)
    (hcondition : ∀ c : Condition, (∀ nested, c.value = .query nested → Q nested) → P c)
    (hnil : L []) (hcons : ∀ op rest, op.Parts P L → L rest → L (op :: rest)) :
    (∀ q, Q q) ∧ (∀ ops, L ops) ∧ (∀ c, P c) := by
  have h : Query.Inherits Q L P := ⟨hquery, hcondition, hnil, hcons⟩
  exact ⟨fun q => (Query.composition_query h q).1, Query.composition_ops h,
    Query.composition_condition h⟩

end Induction

theorem dropRepeats_sublist (d : Dialect) (previous : Option String) (links : List Sql.Link) :
    (dropRepeats d previous links).Sublist links := by
  induction links generalizing previous with
  | nil => exact .slnil
  | cons link rest ih =>
    rw [dropRepeats]
    split
    · exact (ih previous).cons link
    · exact (ih _).cons_cons link

namespace Composer

theorem settle_sublist (c : Composer) (links : List Sql.Link) :
    (c.settle links).Sublist links := by
  rw [settle]
  split
  · exact dropRepeats_sublist _ _ _
  · exact .refl _

/-- The options under which the clauses of a SELECT are composed. -/
def clauseOptions (c : Composer) (opts : Options) (q : Query) (columns : ResultColumns) : Options :=
  { opts with
    distinct := q.distinct?.isSome
    projectionFields := some (c.columnTexts columns) }

/-- The steps of a SELECT statement, each clause under `clauseOptions`. -/
theorem selectTree_eq (c : Composer) (opts : Options) (correlation : Option Sql.Correlation)
    (q : Query) :
    c.selectTree opts correlation q = do
      let plan ← JoinPlan.ofQuery q
      let scope ← c.scope q plan
      let columns ← c.listedColumns { opts with distinct := q.distinct?.isSome } q scope
        (c.dialect.orderSupport { opts with distinct := q.distinct?.isSome })
      let distinct ← c.distinctExpr (c.clauseOptions opts q columns) q.distinct?
      let joins ← c.joins plan
      let filter ← c.links (c.clauseOptions opts q columns) q.ops
      let groupBy ← c.groupExprs (c.clauseOptions opts q columns) q
      let having ←
        if groupBy.isEmpty then pure [] else c.havingLinks (c.clauseOptions opts q columns) q.ops
      let orderBy ←
        if showsOrder (c.clauseOptions opts q columns)
            (c.dialect.orderSupport { opts with distinct := q.distinct?.isSome }) then
          c.orderTerms (c.clauseOptions opts q columns)
            (c.dialect.orderSupport { opts with distinct := q.distinct?.isSome }) scope q
        else pure []
      let rows ← c.rowLimit (c.clauseOptions opts q columns) q
      return (columns,
        { distinct := distinct
          list := match opts.selectList with
            | some sql => .text sql
            | none => .items columns.values
          table := scope.root.table
          joins := joins
          correlation := correlation
          filter := c.settle filter
          groupBy := groupBy
          having := c.settle having
          orderBy := orderBy
          rows := rows }) := by
  obtain ⟨model, target, ops⟩ := q
  rw [selectTree]
  rfl

/-- Where each clause of a SELECT statement comes from. -/
structure ComposedFrom (c : Composer) (opts : Options) (correlation : Option Sql.Correlation)
    (q : Query) (plan : JoinPlan) (scope : Scope) (columns : ResultColumns) (s : Sql.Select) :
    Prop where
  plan_eq : JoinPlan.ofQuery q = .ok plan
  scope_eq : c.scope q plan = .ok scope
  columns_eq : c.listedColumns { opts with distinct := q.distinct?.isSome } q scope
    (c.dialect.orderSupport { opts with distinct := q.distinct?.isSome }) = .ok columns
  distinct_eq : c.distinctExpr (c.clauseOptions opts q columns) q.distinct? = .ok s.distinct
  list_eq : s.list = match opts.selectList with
    | some sql => .text sql
    | none => .items columns.values
  table_eq : s.table = scope.root.table
  joins_eq : c.joins plan = .ok s.joins
  correlation_eq : s.correlation = correlation
  filter_eq : ∃ links, c.links (c.clauseOptions opts q columns) q.ops = .ok links ∧
    s.filter = c.settle links
  groupBy_eq : c.groupExprs (c.clauseOptions opts q columns) q = .ok s.groupBy
  having_eq : ∃ links, (if s.groupBy.isEmpty then pure []
      else c.havingLinks (c.clauseOptions opts q columns) q.ops) = .ok links ∧
    s.having = c.settle links
  orderBy_eq :
    (if showsOrder (c.clauseOptions opts q columns)
        (c.dialect.orderSupport { opts with distinct := q.distinct?.isSome }) then
      c.orderTerms (c.clauseOptions opts q columns)
        (c.dialect.orderSupport { opts with distinct := q.distinct?.isSome }) scope q
    else pure []) = .ok s.orderBy
  rows_eq : c.rowLimit (c.clauseOptions opts q columns) q = .ok s.rows

theorem selectTree_eq_ok {c : Composer} {opts : Options} {correlation : Option Sql.Correlation}
    {q : Query} {columns : ResultColumns} {s : Sql.Select}
    (h : c.selectTree opts correlation q = .ok (columns, s)) :
    ∃ plan scope, c.ComposedFrom opts correlation q plan scope columns s := by
  rw [selectTree_eq] at h
  simp only [bind_eq_ok] at h
  obtain ⟨plan, hplan, scope, hscope, columns', hcolumns, distinct, hdistinct, joins, hjoins,
    filter, hfilter, groupBy, hgroup, h⟩ := h
  rw [ite_bind_eq_ok] at h
  obtain ⟨having, hhaving, h⟩ := h
  rw [ite_bind_eq_ok] at h
  obtain ⟨orderBy, horder, h⟩ := h
  simp only [bind_eq_ok, pure_eq_ok] at h
  obtain ⟨rows, hrows, heq⟩ := h
  cases heq
  exact ⟨plan, scope, hplan, hscope, hcolumns, hdistinct, rfl, rfl, hjoins, rfl,
    ⟨filter, hfilter, rfl⟩, hgroup, ⟨having, hhaving, rfl⟩, horder, hrows⟩

/-- A statement that comes from all its clauses is the composed one. -/
theorem ComposedFrom.selectTree_eq {c : Composer} {opts : Options}
    {correlation : Option Sql.Correlation} {q : Query} {plan : JoinPlan} {scope : Scope}
    {columns : ResultColumns} {s : Sql.Select}
    (h : c.ComposedFrom opts correlation q plan scope columns s) :
    c.selectTree opts correlation q = .ok (columns, s) := by
  obtain ⟨distinct, list, table, joins, correlation', filter, groupBy, having, orderBy, rows⟩ := s
  obtain ⟨hplan, hscope, hcolumns, hdistinct, rfl, rfl, hjoins, rfl, ⟨links, hlinks, rfl⟩, hgroup,
    ⟨kept, hkept, rfl⟩, horder, hrows⟩ := h
  rw [Composer.selectTree_eq]
  simp only [bind_eq_ok]
  refine ⟨plan, hplan, scope, hscope, columns, hcolumns, distinct, hdistinct, joins, hjoins,
    links, hlinks, groupBy, hgroup, ?_⟩
  rw [ite_bind_eq_ok]
  refine ⟨kept, hkept, ?_⟩
  rw [ite_bind_eq_ok]
  exact ⟨orderBy, horder, bind_eq_ok.mpr ⟨rows, hrows, rfl⟩⟩

end Composer

end SqlCompose
