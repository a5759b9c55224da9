import SqlCompose.Proofs.Clauses.Filled

/-!
# SELECT statements have filled clauses

Every clause of a composed SELECT is filled but for its list, which is empty where the projection
records leave no name. So the lists are filled, too, where every sub-select leaves one. The SELECT
of an EXISTS has a constant list.
-/

namespace SqlCompose

/-- Every sub-select in the records, at any depth, lists something. -/
def Composer.SubSelectsListed (c : Composer) (ops : List Operation) : Prop :=
  ∀ (condition : Condition) (nested : Query), (Operation.condition condition).Inside ops →
    condition.value = .query nested → nested.hasCondition → ¬ condition.effectiveOp.isExists →
      (c.nestedNames {} nested).Nonempty

namespace Composer

variable {c : Composer} {lists : Prop}

section Values

variable (hd : c.dialect.SpellsValues) {m : Model} {f : Field} {op : Operator}

theorem filled_valueComparison {v : Value} {comparison : Sql.Comparison}
    (h : c.valueComparison m f op v = .ok comparison) : comparison.Filled c.dialect := by
  rw [valueComparison] at h
  split at h
  · cases v with
    | string pattern =>
      cases h
      trivial
    | _ => cases h
  · split at h
    · cases h
      trivial
    · split at h
      · cases h
      · cases h
        trivial

include hd

theorem filled_listComparisons {values : List Value} {parts : List Sql.Comparison}
    (h : c.listComparisons m f op values = .ok parts) :
    ∀ part ∈ parts, part.Filled c.dialect := by
  rw [listComparisons, bind_eq_ok] at h
  obtain ⟨special, hspecial, h⟩ := h
  have hparts : ∀ part ∈ special, part.Filled c.dialect := by
    intro part hp
    obtain ⟨v, -, hv⟩ := exists_of_mapM_eq_ok hspecial hp
    exact filled_valueComparison hv
  dsimp only at h
  split at h
  · cases h
    exact hparts
  · rename_i hordinary
    cases h
    intro part hp
    rcases List.mem_append.mp hp with hp | hp
    · exact hparts part hp
    · rw [List.mem_singleton] at hp
      rw [hp]
      refine ⟨?_, List.forall_mem_map.mpr fun v _ => hd v _⟩
      rwa [ne_eq, List.map_eq_nil_iff, ← List.isEmpty_iff]

theorem filled_listCondition {values : List Value} {operand : Sql.Predicate}
    (h : c.listCondition m f op values = .ok (some operand)) :
    operand.Filled c.dialect lists := by
  rw [listCondition] at h
  split at h
  · obtain ⟨parts, hparts, h⟩ := bind_eq_ok.mp h
    have hfilled := filled_listComparisons hd hparts
    split at h
    · split at h <;> cases h
    · cases h
      exact .comparison (hfilled _ List.mem_cons_self)
    · rename_i hnil _
      cases h
      exact .combined hnil hfilled
  · cases h

end Values

theorem filled_columnCondition {m : Model} {f : Field} {op : Operator} {other : FieldRef}
    {operand : Sql.Predicate} (h : c.columnCondition m f op other = .ok operand) :
    operand.Filled c.dialect lists := by
  rw [columnCondition] at h
  split at h
  · cases h
  · simp only [bind_eq_ok, pure_eq_ok] at h
    obtain ⟨right, -, rfl⟩ := h
    exact .comparison trivial

theorem filled_literalCondition {m : Model} {f : Field} {op : Operator} {literal : Literal}
    {operand : Sql.Predicate} (h : c.literalCondition m f op literal = .ok operand) :
    operand.Filled c.dialect lists := by
  rw [literalCondition] at h
  split at h
  · cases h
  · cases h
  · simp only [bind_eq_ok, pure_eq_ok] at h
    obtain ⟨right, -, rfl⟩ := h
    exact .comparison trivial

theorem filled_selectPredicate {left : Sql.Column} {op : Operator} {quantifier : Option Quantifier}
    {inner : Sql.Select} (hi : inner.Filled c.dialect lists)
    (hlist : lists → inner.list.Filled c.dialect) :
    (selectPredicate left op quantifier inner).Filled c.dialect lists := by
  unfold selectPredicate
  split
  · exact .inSelect hi hlist
  · exact .inSelect hi hlist
  · exact .compareSelect hi hlist

/-- A joined table has the comparisons of its edges. -/
theorem comparisons_ne_nil_of_joins {plan : JoinPlan} {joins : List Sql.Join}
    (h : c.joins plan = .ok joins) : ∀ join ∈ joins, join.comparisons ≠ [] := by
  simp only [Composer.joins, bind_eq_ok, pure_eq_ok] at h
  obtain ⟨parts, hparts, rfl⟩ := h
  intro join hjoin
  obtain ⟨part, hpart, hjoin⟩ := List.mem_flatten.mp hjoin
  obtain ⟨group, -, hgroup⟩ := exists_of_mapM_eq_ok hparts hpart
  rw [Composer.join, bind_eq_ok] at hgroup
  obtain ⟨m, -, hgroup⟩ := hgroup
  split at hgroup
  · cases hgroup
    cases hjoin
  · simp only [bind_eq_ok, pure_eq_ok] at hgroup
    obtain ⟨first, -, -, -, others, -, rfl⟩ := hgroup
    rw [List.mem_singleton] at hjoin
    rw [hjoin]
    exact List.cons_ne_nil _ _

section Texts

variable {o : Options} {q : Query} (hs : ∀ op ∈ q.ops, op.spellsRaw)

include hs

theorem text_ne_empty_of_groupExprs {exprs : List Sql.Expr} (h : c.groupExprs o q = .ok exprs) :
    ∀ e ∈ exprs, e.text c.dialect ≠ "" := by
  simp only [groupExprs, bind_eq_ok, pure_eq_ok] at h
  obtain ⟨all, hall, rfl⟩ := h
  split
  · exact List.forall_mem_nil _
  · intro e he
    obtain ⟨entry, hentry, hok⟩ := exists_of_mapM_eq_ok hall he
    have hentry := Query.spellsRaw_of_mem_groupBy hs hentry
    cases entry with
    | field ref =>
      simp only [groupExpr, bind_eq_ok, pure_eq_ok] at hok
      obtain ⟨column, -, rfl⟩ := hok
      exact column.text_ne_empty c.dialect
    | literal inner => exact text_ne_empty_of_literalExpr hentry hok

theorem orderFilled_of_orderTerms {support : OrderSupport} {scope : Scope}
    {terms : List Sql.OrderTerm} (h : c.orderTerms o support scope q = .ok terms) :
    Sql.OrderFilled c.dialect terms := by
  simp only [orderTerms, bind_eq_ok, pure_eq_ok] at h
  obtain ⟨all, hall, rfl⟩ := h
  intro term hterm
  obtain ⟨found, hfound, heq⟩ := List.mem_filterMap.mp hterm
  obtain rfl : found = some term := heq
  obtain ⟨entry, hentry, hok⟩ := exists_of_mapM_eq_ok hall hfound
  have hentry := Query.spellsRaw_of_mem_order hs hentry
  obtain ⟨ref | literal, direction⟩ := entry
  · simp only [orderTerm] at hok
    split at hok
    · simp only [bind_eq_ok] at hok
      obtain ⟨⟨m, f⟩, -, hok⟩ := hok
      split at hok
      · cases hok
        exact Sql.Column.text_ne_empty _ _
      · cases hok
    · cases hok
  · simp only [orderTerm, bind_eq_ok, pure_eq_ok] at hok
    obtain ⟨e, he, heq⟩ := hok
    cases heq
    exact text_ne_empty_of_literalExpr hentry he

/-- Where the projection leaves a name, there is an item, and every item has a text. -/
theorem listFilled_of_listedColumns {scope : Scope} {support : OrderSupport}
    {columns : ResultColumns} (hlist : o.selectList = none)
    (hnames : (c.listedNames o q scope support).Nonempty)
    (h : c.listedColumns o q scope support = .ok columns) :
    Sql.SelectList.Filled c.dialect (.items columns.values) := by
  constructor
  · obtain ⟨name, hname⟩ := hnames
    have hmem : name ∈ columns.keys := (mem_keys_listedColumns hlist h).mpr hname
    intro hnil
    rw [OrderedMap.values, List.map_eq_nil_iff] at hnil
    rw [OrderedMap.keys, hnil] at hmem
    cases hmem
  · rw [OrderedMap.values, List.forall_mem_map]
    rintro ⟨key, item⟩ hentry
    have hsource : c.Source _ q.projectedItems key item :=
      allSourced_listedColumns h (key, item) hentry
    change item.expr.text c.dialect ≠ ""
    cases hsource with
    | column _ column => exact column.text_ne_empty c.dialect
    | literal hmem hkey hitem =>
      simp only [Composer.item, bind_eq_ok, pure_eq_ok] at hitem
      obtain ⟨e, he, heq⟩ := hitem
      have hraw := Query.spellsRaw_of_mem_projectedItems hs hmem
      rw [← heq]
      exact text_ne_empty_of_literalExpr hraw he
    | raw hmem =>
      have hraw := Query.spellsRaw_of_mem_projectedItems hs hmem
      rwa [ProjectionItem.spellsRaw, bne_iff_ne] at hraw

end Texts

/-- What a list of records needs for filled clauses: its raw texts, and a name in each sub-select
where `lists` holds. -/
structure Supplied (c : Composer) (lists : Prop) (ops : List Operation) : Prop where
  spellsRaw : ∀ op : Operation, op.Inside ops → op.spellsRaw
  listed : lists → c.SubSelectsListed ops

namespace Supplied

variable {ops : List Operation}

theorem of_inside {others : List Operation} (h : c.Supplied lists ops)
    (hsub : ∀ op : Operation, op.Inside others → op.Inside ops) : c.Supplied lists others :=
  ⟨fun op hop => h.spellsRaw op (hsub op hop),
    fun hl condition nested hin => h.listed hl condition nested (hsub _ hin)⟩

theorem mono {others : List Operation} (h : c.Supplied lists ops) (hsub : others ⊆ ops) :
    c.Supplied lists others := h.of_inside fun _ hop => hop.mono hsub

theorem of_condition {condition : Condition} {nested : Query} (h : c.Supplied lists ops)
    (hmem : .condition condition ∈ ops) (hv : condition.value = .query nested) :
    c.Supplied lists nested.ops := h.of_inside fun _ hop => .condition hmem hv hop

theorem of_group {connector : Connector} {negated : Bool} {q : Query} (h : c.Supplied lists ops)
    (hmem : .group ⟨connector, negated, some q⟩ ∈ ops) : c.Supplied lists q.ops :=
  h.of_inside fun _ hop => .group hmem hop

theorem of_having {q : Query} (h : c.Supplied lists ops) (hmem : .having q ∈ ops) :
    c.Supplied lists q.ops := h.of_inside fun _ hop => .having hmem hop

theorem forall_op (h : c.Supplied lists ops) : ∀ op ∈ ops, op.spellsRaw :=
  fun op hop => h.spellsRaw op (.here hop)

end Supplied

/-- The operands of links have filled clauses. -/
def LinksFilled (c : Composer) (lists : Prop) (links : List Sql.Link) : Prop :=
  ∀ link ∈ links, link.operand.Filled c.dialect lists

theorem LinksFilled.settle {links : List Sql.Link} (h : c.LinksFilled lists links) :
    c.LinksFilled lists (c.settle links) :=
  fun link hl => h link ((c.settle_sublist links).subset hl)

theorem ComposedFrom.filled {o : Options} {correlation : Option Sql.Correlation} {q : Query}
    {plan : JoinPlan} {scope : Scope} {columns : ResultColumns} {s : Sql.Select}
    (h : c.ComposedFrom o correlation q plan scope columns s) (hs : ∀ op ∈ q.ops, op.spellsRaw)
    (hfilter : c.LinksFilled lists s.filter) (hhaving : c.LinksFilled lists s.having) :
    s.Filled c.dialect lists := by
  refine ⟨comparisons_ne_nil_of_joins h.joins_eq, hfilter,
    text_ne_empty_of_groupExprs hs h.groupBy_eq, hhaving, ?_⟩
  have horder := h.orderBy_eq
  split at horder
  · exact orderFilled_of_orderTerms hs horder
  · rw [← pure_eq_ok.mp horder]
    exact List.forall_mem_nil _

/-- A list that is not given is filled if the projection leaves a name. -/
theorem ComposedFrom.listFilled {o : Options} {correlation : Option Sql.Correlation} {q : Query}
    {plan : JoinPlan} {scope : Scope} {columns : ResultColumns} {s : Sql.Select}
    (h : c.ComposedFrom o correlation q plan scope columns s) (hs : ∀ op ∈ q.ops, op.spellsRaw)
    (hgiven : ∀ sql, o.selectList = some sql → sql ≠ "")
    (hnames : o.selectList = none → (c.listedNames { o with distinct := q.distinct?.isSome } q scope
      (c.dialect.orderSupport { o with distinct := q.distinct?.isSome })).Nonempty) :
    s.list.Filled c.dialect := by
  rw [h.list_eq]
  cases hlist : o.selectList with
  | some sql => exact hgiven sql hlist
  | none => exact listFilled_of_listedColumns hs hlist (hnames hlist) h.columns_eq

/-- The operand of a condition, once the query that it compares with is taken care of. -/
theorem filled_predicate (hd : c.dialect.SpellsValues) {condition : Condition}
    (hnested : ∀ nested, condition.value = .query nested → ∀ {opts : Options} {columns s},
      c.selectTree opts none nested = .ok (columns, s) → s.Filled c.dialect lists)
    (hsupplied : c.Supplied lists [.condition condition])
    {o : Options} {operand : Sql.Predicate} (h : c.predicate o condition = .ok (some operand)) :
    operand.Filled c.dialect lists := by
  have hlisted : lists → ∀ nested, condition.value = .query nested → nested.hasCondition →
      ¬ condition.effectiveOp.isExists → (c.nestedNames {} nested).Nonempty := fun hl nested =>
    hsupplied.listed hl condition nested (.here List.mem_cons_self)
  obtain ⟨field, op, value, negate, connector, quantifier, join⟩ := condition
  rw [predicate, bind_eq_ok] at h
  obtain ⟨⟨m, f⟩, -, h⟩ := h
  simp only [Condition.effectiveOp] at hlisted
  dsimp only at h
  generalize (if negate = true then op.invert else op) = op at h hlisted
  split at h
  · cases value with
    | query nested =>
      simp only [bind_eq_ok, pure_eq_ok] at h
      obtain ⟨⟨columns, inner⟩, hinner, heq⟩ := h
      cases heq
      obtain ⟨plan, scope, hcomposed⟩ := selectTree_eq_ok hinner
      refine .rowExists (hnested nested rfl hinner) ?_
      rw [hcomposed.list_eq]
      exact (by decide : "1" ≠ "")
    | value _ | field _ | literal _ => cases h
  · rename_i hexists
    cases value with
    | value v =>
      cases v with
      | list values => exact filled_listCondition hd h
      | _ =>
        simp only [bind_eq_ok, pure_eq_ok] at h
        obtain ⟨comparison, hcomparison, heq⟩ := h
        cases heq
        exact .comparison (filled_valueComparison hcomparison)
    | field other =>
      simp only [bind_eq_ok, pure_eq_ok] at h
      obtain ⟨p, hp, heq⟩ := h
      cases heq
      exact filled_columnCondition hp
    | literal inner =>
      simp only [bind_eq_ok, pure_eq_ok] at h
      obtain ⟨p, hp, heq⟩ := h
      cases heq
      exact filled_literalCondition hp
    | query nested =>
      dsimp only at h
      split at h
      · cases h
      · rename_i hcondition
        split at h
        · cases h
        · simp only [bind_eq_ok, pure_eq_ok] at h
          obtain ⟨⟨columns, inner⟩, hinner, heq⟩ := h
          cases heq
          obtain ⟨plan, scope, hcomposed⟩ := selectTree_eq_ok hinner
          refine filled_selectPredicate (hnested nested rfl hinner) fun hl => ?_
          have hnames := hlisted hl nested rfl (by simpa using hcondition) hexists
          have hraw := (hsupplied.of_condition List.mem_cons_self rfl).forall_op
          exact hcomposed.listFilled hraw (fun _ hsql => by cases hsql) fun _ => hnames

/-- Everything composed from records that have what they need is filled. Of a SELECT itself the
list is left out, since the caller may give it. -/
theorem composition_filled (hd : c.dialect.SpellsValues) :
    (∀ q : Query, c.Supplied lists q.ops → ∀ {o : Options} {correlation columns s},
      c.selectTree o correlation q = .ok (columns, s) → s.Filled c.dialect lists) ∧
    (∀ ops : List Operation, c.Supplied lists ops → ∀ {o : Options} {links},
      (c.links o ops = .ok links → c.LinksFilled lists links) ∧
      (c.havingLinks o ops = .ok links → c.LinksFilled lists links)) ∧
    (∀ condition : Condition, c.Supplied lists [.condition condition] →
      ∀ {o : Options} {operand}, c.predicate o condition = .ok (some operand) →
        operand.Filled c.dialect lists) := by
  have hempty : c.LinksFilled lists [] := List.forall_mem_nil _
  -- What is supplied for a list of records is supplied for each part that the composition enters.
  refine Query.composition_induct ?_ ?_ ?_ ?_
  · intro model target ops hops hsupplied o correlation columns s h
    obtain ⟨plan, scope, hcomposed⟩ := selectTree_eq_ok h
    refine hcomposed.filled hsupplied.forall_op ?_ ?_
    · obtain ⟨links, hlinks, heq⟩ := hcomposed.filter_eq
      rw [heq]
      exact ((hops hsupplied).1 hlinks).settle
    · obtain ⟨links, hlinks, heq⟩ := hcomposed.having_eq
      rw [heq]
      split at hlinks
      · rw [← pure_eq_ok.mp hlinks]
        exact hempty.settle
      · exact ((hops hsupplied).2 hlinks).settle
  · intro condition hnested hsupplied o operand h
    refine filled_predicate hd (fun nested hv opts columns s hs => ?_) hsupplied h
    exact hnested nested hv (hsupplied.of_condition List.mem_cons_self hv) hs
  · intro _ o links
    rw [Composer.links, Composer.havingLinks, pure_eq_ok]
    exact ⟨fun h => h ▸ hempty, fun h => h ▸ hempty⟩
  · intro op rest hop hrest hsupplied o links
    have hsuppliedRest := hsupplied.mono (List.subset_cons_self op rest)
    have hrest : ∀ {links}, (c.links o rest = .ok links → c.LinksFilled lists links) ∧
        (c.havingLinks o rest = .ok links → c.LinksFilled lists links) := hrest hsuppliedRest
    constructor
    · intro h
      rcases op with condition | ⟨connector, negated, _ | ⟨model, target, inner⟩⟩ | _ | _ | _ | _
      · simp only [Composer.links, bind_eq_ok, pure_eq_ok] at h
        obtain ⟨operand, hoperand, others, hothers, rfl⟩ := h
        have hothers := hrest.1 hothers
        cases operand with
        | none => exact hothers
        | some p =>
          -- The condition alone is supplied with what the whole list is.
          have hhead := hsupplied.mono (List.cons_subset_cons _ (List.nil_subset rest))
          exact List.forall_mem_cons.mpr ⟨hop.condition rfl hhead hoperand, hothers⟩
      · exact hrest.1 (by simpa only [Composer.links] using h)
      · simp only [Composer.links, bind_eq_ok, pure_eq_ok] at h
        obtain ⟨body, hbody, others, hothers, rfl⟩ := h
        have hothers := hrest.1 hothers
        have hinner := hsupplied.of_group List.mem_cons_self
        have hbody := ((hop.group rfl hinner).1 hbody).settle
        -- A group is left out once nothing of it is left.
        split
        · exact hothers
        · rename_i hne
          have hgroup : Sql.Predicate.Filled c.dialect lists (.group negated (c.settle body)) :=
            .group (by simpa using hne) hbody
          exact List.forall_mem_cons.mpr ⟨hgroup, hothers⟩
      all_goals exact hrest.1 (by simpa only [Composer.links] using h)
    · intro h
      rcases op with _ | _ | _ | _ | _ | ⟨model, target, inner⟩
      case having =>
        rw [Composer.havingLinks] at h
        split at h
        · exact hrest.2 h
        · exact (hop.having rfl (hsupplied.of_having List.mem_cons_self)).1 h
      all_goals exact hrest.2 (by simpa only [Composer.havingLinks] using h)

end Composer

end SqlCompose
