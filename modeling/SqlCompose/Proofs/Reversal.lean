import SqlCompose.Proofs.Aliases
import SqlCompose.Proofs.Interleaving

/-!
# Reversed order

A handle that reverses the order composes what the handle itself composes for the reversed query,
whose order records say the opposite of each direction. The flag is read where the ORDER BY clause
is written and nowhere else: the SELECT list takes the fields of the order in without looking at a
direction, and nested queries are composed under a handle without the flag, so their order stays.
-/

namespace SqlCompose

/-- An order record with its directions turned around. -/
def OrderClause.reversed (clause : OrderClause) : OrderClause :=
  { clause with entries := clause.entries.map OrderEntry.reverse }

/-- A record with the directions turned around if it is an order record. -/
def Operation.reversed : Operation → Operation
  | .order clause => .order clause.reversed
  | op => op

/-- The query with the directions of its own order records turned around. Queries nested in it stay
as they are. -/
def Query.reversed (q : Query) : Query := { q with ops := q.ops.map Operation.reversed }

/-- The options for the opposite order. -/
def Options.reversing (o : Options) : Options := { o with reverseOrder := true }

theorem Dialect.IsBuiltin.orderSupport_reversing {d : Dialect} (hd : d.IsBuiltin) (o : Options) :
    d.orderSupport o.reversing = d.orderSupport o := by
  cases hd <;> rfl

namespace Operation

theorem family_reversed (op : Operation) : op.reversed.family = op.family := by cases op <;> rfl

/-- Only order records are turned around. -/
theorem reversed_eq_self {op : Operation} (h : op.family ≠ .order) : op.reversed = op := by
  cases op with
  | order clause => exact absurd rfl h
  | condition | group | project | groupBy | having | distinct | limit | offset => rfl

theorem orderClause?_reversed (op : Operation) :
    op.reversed.orderClause? = op.orderClause?.map OrderClause.reversed := by
  cases op <;> rfl

end Operation

namespace Query

variable (q : Query)

/-- The records of the other families stay. -/
theorem recordsOf_reversed {k : ClauseFamily} (hk : k ≠ .order) :
    recordsOf k q.reversed.ops = recordsOf k q.ops := by
  rw [reversed]
  induction q.ops with
  | nil => rfl
  | cons op rest ih =>
    rw [List.map_cons, recordsOf_cons, recordsOf_cons, ih, Operation.family_reversed]
    by_cases hop : op.family = k
    · rw [if_pos hop, if_pos hop, Operation.reversed_eq_self (hop ▸ hk)]
    · rw [if_neg hop, if_neg hop]

theorem projections_reversed : q.reversed.projections = q.projections :=
  Operation.picksFrom_projection?.filterMap_congr (q.recordsOf_reversed (by decide))

theorem distinct?_reversed : q.reversed.distinct? = q.distinct? :=
  Operation.picksFrom_distinct?.last?_congr (q.recordsOf_reversed (by decide))

theorem having?_reversed : q.reversed.having? = q.having? :=
  Operation.picksFrom_having?.last?_congr (q.recordsOf_reversed (by decide))

theorem limit?_reversed : q.reversed.limit? = q.limit? :=
  Operation.picksFrom_limit?.last?_congr (q.recordsOf_reversed (by decide))

theorem offset?_reversed : q.reversed.offset? = q.offset? :=
  Operation.picksFrom_offset?.last?_congr (q.recordsOf_reversed (by decide))

theorem groupBy_reversed : q.reversed.groupBy = q.groupBy :=
  Query.groupBy_congr (q.recordsOf_reversed (by decide))

theorem foldl_applyOrder_reversed (clauses : List OrderClause) (entries : List OrderEntry) :
    (clauses.map OrderClause.reversed).foldl applyOrder (entries.map OrderEntry.reverse) =
      (clauses.foldl applyOrder entries).map OrderEntry.reverse := by
  rw [List.foldl_map]
  refine List.foldl_hom (List.map OrderEntry.reverse) fun entries clause => ?_
  obtain ⟨mode, added⟩ := clause
  cases mode with
  | replace => rfl
  | append => exact List.map_append.symm

/-- The order of the reversed query holds the same entries in the opposite directions. -/
theorem order_reversed : q.reversed.order = q.order.map OrderEntry.reverse := by
  have hclauses : q.reversed.ops.filterMap Operation.orderClause? =
      (q.ops.filterMap Operation.orderClause?).map OrderClause.reversed := by
    rw [reversed, List.filterMap_map, List.map_filterMap]
    exact List.filterMap_congr fun op _ => op.orderClause?_reversed
  rw [order, order, hclauses]
  exact foldl_applyOrder_reversed _ []

theorem ofQuery_reversed : JoinPlan.ofQuery q.reversed = JoinPlan.ofQuery q := by
  have hedges : JoinEdge.collect q.reversed.model q.reversed.ops =
      JoinEdge.collect q.model q.ops := by
    rw [← JoinEdge.collect_recordsOf, q.recordsOf_reversed (by decide), JoinEdge.collect_recordsOf]
    rfl
  rw [JoinPlan.ofQuery, JoinPlan.ofQuery, hedges]
  rfl

end Query

namespace Composer

variable (c : Composer) (o : Options) (q : Query)

/-- The SELECT list takes in the fields of the order whatever their directions. -/
theorem resultColumns_reversed (scope : Scope) (absorb : Bool) :
    c.resultColumns o q.reversed scope absorb = c.resultColumns o q scope absorb := by
  have habsorb : ∀ columns : ResultColumns,
      q.reversed.order.foldlM (c.absorbOrder o scope) columns =
        q.order.foldlM (c.absorbOrder o scope) columns := by
    intro columns
    rw [q.order_reversed, List.foldlM_map]
    rfl
  simp only [resultColumns, q.projections_reversed, habsorb]

theorem listedColumns_reversed (scope : Scope) (support : OrderSupport) :
    c.listedColumns o q.reversed scope support = c.listedColumns o q scope support := by
  have hnested : c.nestedColumns o q.reversed = c.nestedColumns o q := by
    rw [nestedColumns, nestedColumns, q.projections_reversed]
    rfl
  simp only [listedColumns, hnested, resultColumns_reversed, q.groupBy_reversed]

section Clauses

variable (columns : ResultColumns)

theorem clauseOptions_reversed : c.clauseOptions o q.reversed columns =
    c.clauseOptions o q columns := by
  rw [clauseOptions, clauseOptions, q.distinct?_reversed]

theorem distinctExpr_reversing :
    c.distinctExpr (c.clauseOptions o.reversing q columns) =
      c.distinctExpr (c.clauseOptions o q columns) := rfl

theorem groupExprs_reversing :
    c.groupExprs (c.clauseOptions o.reversing q columns) =
      c.groupExprs (c.clauseOptions o q columns) := rfl

theorem showsOrder_reversing :
    showsOrder (c.clauseOptions o.reversing q columns) =
      showsOrder (c.clauseOptions o q columns) := rfl

variable {o}

/-- The flag turns around each entry as the query turned around does. -/
theorem orderTerms_reversing (h : o.reverseOrder = false) (support : OrderSupport)
    (scope : Scope) :
    c.orderTerms (c.clauseOptions o.reversing q columns) support scope q =
      c.orderTerms (c.clauseOptions o q columns) support scope q.reversed := by
  have hentry : c.orderTerm (c.clauseOptions o.reversing q columns) support scope =
      c.orderTerm (c.clauseOptions o q columns) support scope ∘ OrderEntry.reverse := by
    funext entry
    have hoff : (c.clauseOptions o q columns).reverseOrder = false := h
    have hon : (c.clauseOptions o.reversing q columns).reverseOrder = true := rfl
    simp only [Function.comp_apply, orderTerm, OrderEntry.reverse, hoff, hon, if_true,
      Bool.false_eq_true, if_false]
    rfl
  rw [orderTerms, orderTerms, q.order_reversed, List.mapM_map, hentry]

theorem rowLimit_reversing (hd : c.dialect.IsBuiltin) :
    c.rowLimit (c.clauseOptions o.reversing q columns) =
      c.rowLimit (c.clauseOptions o q columns) :=
  rowLimit_congr _ hd rfl rfl rfl rfl

end Clauses

theorem links_reversed : c.links o q.reversed.ops = c.links o q.ops := by
  rw [← links_recordsOf, q.recordsOf_reversed (by decide), links_recordsOf]

theorem havingLinks_reversed : c.havingLinks o q.reversed.ops = c.havingLinks o q.ops := by
  rw [havingLinks_eq, havingLinks_eq, q.having?_reversed]

variable {c o q}

/-- The flag is read by the ORDER BY clause of its own statement only. -/
theorem selectTree_reversing (hd : c.dialect.IsBuiltin) (h : o.reverseOrder = false)
    (correlation : Option Sql.Correlation) :
    c.selectTree o.reversing correlation q = c.selectTree o correlation q.reversed := by
  -- What is nested is composed under `Options.nested`, which resets the flag.
  have hoperands : ∀ columns, c.SameOperands (c.clauseOptions o.reversing q columns)
      (c.clauseOptions o q columns) q.ops := fun columns =>
    (composition_isolated hd).2.1 q.ops _ _ rfl
  have hlinks := fun columns => (hoperands columns).1
  have hhaving := fun columns => (hoperands columns).2
  have hscope : c.scope q.reversed = c.scope q := rfl
  have hgroup : ∀ opts, c.groupExprs opts q.reversed = c.groupExprs opts q := by
    intro opts
    rw [groupExprs, groupExprs, q.groupBy_reversed]
  have hrows : ∀ opts, c.rowLimit opts q.reversed = c.rowLimit opts q := by
    intro opts
    rw [rowLimit, rowLimit, q.limit?_reversed, q.offset?_reversed]
  have hsupport : ∀ distinct, c.dialect.orderSupport { o.reversing with distinct := distinct } =
      c.dialect.orderSupport { o with distinct := distinct } := fun distinct =>
    hd.orderSupport_reversing { o with distinct := distinct }
  rw [selectTree_eq, selectTree_eq]
  simp only [q.ofQuery_reversed, hscope, q.distinct?_reversed, listedColumns_reversed,
    clauseOptions_reversed, links_reversed, havingLinks_reversed, hgroup, hrows, hsupport,
    distinctExpr_reversing, groupExprs_reversing, showsOrder_reversing, hlinks, hhaving,
    orderTerms_reversing c q _ h, rowLimit_reversing c q _ hd]
  rfl

end Composer

/-- Under a built-in dialect a query is composed in the opposite order as the query with the
directions of its own order records turned around is composed: same text, same projection, same
refusal. Whatever is nested in the query keeps its order. -/
theorem reverse_order_reverses_query {c : Composer} (hd : c.dialect.IsBuiltin) {o : Options}
    (h : o.reverseOrder = false) (q : Query) : c.select o.reversing q = c.select o q.reversed := by
  have h' : Options.reverseOrder { o with statement := .select } = false := h
  have htree : c.selectTree { o.reversing with statement := .select } none q =
      c.selectTree { o with statement := .select } none q.reversed :=
    Composer.selectTree_reversing hd h' none
  rw [Composer.select, Composer.select, htree]
  rfl

theorem reverse_order_reverses_query_commonAges :
    people.dialect.IsBuiltin ∧ Options.reverseOrder {} = false ∧
      people.select (Options.reversing {}) commonAges = people.select {} commonAges.reversed ∧
      (people.select {} commonAges.reversed).map (·.sql) = .ok
        ("SELECT \"people\".\"age\" AS \"Person:age\", " ++
          "COUNT(\"people\".\"id\") AS \"total\" FROM \"people\" " ++
          "WHERE EXISTS(SELECT 1 FROM \"people\" WHERE \"people\".\"age\" > 17 " ++
          "ORDER BY COUNT(\"people\".\"id\") ASC LIMIT 1 OFFSET 0) GROUP BY \"people\".\"age\" " ++
          "ORDER BY COUNT(\"people\".\"id\") ASC") := by
  have hd : people.dialect.IsBuiltin := .sqlite
  have h : Options.reverseOrder {} = false := rfl
  have hsql : (people.select {} commonAges.reversed).map (·.sql) = .ok
      ("SELECT \"people\".\"age\" AS \"Person:age\", " ++
        "COUNT(\"people\".\"id\") AS \"total\" FROM \"people\" " ++
        "WHERE EXISTS(SELECT 1 FROM \"people\" WHERE \"people\".\"age\" > 17 " ++
        "ORDER BY COUNT(\"people\".\"id\") ASC LIMIT 1 OFFSET 0) GROUP BY \"people\".\"age\" " ++
        "ORDER BY COUNT(\"people\".\"id\") ASC") := by
    decide +kernel
  exact ⟨hd, h, reverse_order_reverses_query hd h commonAges, hsql⟩

end SqlCompose
