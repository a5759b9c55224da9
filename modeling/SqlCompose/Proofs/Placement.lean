import SqlCompose.Proofs.Correlation
import SqlCompose.Proofs.Repeats

/-!
# Where a condition goes

A statement takes the conditions of its query, those inside groups too, to two places: one that
joins a model becomes an edge of the join plan, any other one an operand of the filter. Edges and
operands are gathered by recursions of their own. Here both are compared with one list, the
conditions in the order of their records, under a configuration that neither leaves lists out nor
drops repeats.
-/

namespace SqlCompose

/-- The conditions of records, those inside groups in their place. -/
def conditionsOf : List Operation → List Condition
  | [] => []
  | .condition c :: rest => c :: conditionsOf rest
  | .group ⟨_, _, some ⟨_, _, inner⟩⟩ :: rest => conditionsOf inner ++ conditionsOf rest
  | _ :: rest => conditionsOf rest

/-- The conditions of a query that join a model. -/
def Query.joinConditions (q : Query) : List Condition :=
  (conditionsOf q.ops).filter Condition.isJoinEdge

/-- The conditions of a query that do not join a model. -/
def Query.filterConditions (q : Query) : List Condition :=
  (conditionsOf q.ops).filter fun condition => !condition.isJoinEdge

theorem anyCondition_eq_any (p : Condition → Bool) (ops : List Operation) :
    anyCondition p ops = (conditionsOf ops).any p := by
  induction ops using conditionsOf.induct with
  | case1 => rw [anyCondition, conditionsOf, List.any_nil]
  | case2 c rest ih => rw [anyCondition, conditionsOf, List.any_cons, ih]
  | case3 connector negated model target inner rest ihi ihr =>
    rw [anyCondition, conditionsOf, List.any_append, ihi, ihr]
  | case4 head rest hc hg ih =>
    rw [anyCondition, conditionsOf]
    · exact ih
    all_goals assumption

theorem Query.hasJoins_eq_false_iff (q : Query) : q.hasJoins = false ↔ q.joinConditions = [] := by
  rw [hasJoins, anyCondition_eq_any, joinConditions, List.any_eq_false, List.filter_eq_nil_iff]

/-- A condition joins a model or filters, and never both. -/
theorem Query.length_conditions (q : Query) :
    q.joinConditions.length + q.filterConditions.length = (conditionsOf q.ops).length :=
  (List.length_eq_length_filter_add _).symm

theorem Condition.exists_query_of_isJoinEdge {condition : Condition}
    (h : condition.isJoinEdge) : ∃ nested, condition.value = .query nested := by
  rw [isJoinEdge, Bool.and_eq_true] at h
  cases hv : condition.value with
  | query nested => exact ⟨nested, rfl⟩
  | value | field | literal => simp [hv] at h

/-- The edge that a condition becomes in the plan of a query with this root. -/
def Condition.JoinsAs (root : String) (condition : Condition) (edge : JoinEdge) : Prop :=
  ∃ nested, condition.value = .query nested ∧
    JoinEdge.ofCondition root condition nested = .ok edge

/-- The edges of records are those of their join conditions, one for each and in order. -/
theorem JoinEdge.collect_eq_ok {root : String} {ops : List Operation} {edges : List JoinEdge}
    (h : collect root ops = .ok edges) :
    List.Forall₂ (Condition.JoinsAs root) ((conditionsOf ops).filter Condition.isJoinEdge)
      edges := by
  induction ops using collect.induct generalizing edges with
  | case1 =>
    rw [collect, pure_eq_ok] at h
    rw [← h, conditionsOf]
    exact .nil
  | case2 c rest nested hs hj ih =>
    simp only [collect, hj, hs, bind_eq_ok, pure_eq_ok] at h
    obtain ⟨edge, he, edges', hrest, rfl⟩ := h
    obtain ⟨value, hv⟩ := Condition.exists_query_of_isJoinEdge hj
    obtain rfl : value = nested := by simpa [Condition.subQuery?, hv] using hs
    rw [conditionsOf, List.filter_cons_of_pos hj]
    exact .cons ⟨value, hv, he⟩ (ih hrest)
  | case3 c rest hn ih =>
    -- The recursion asks for a nested query too, but a join condition always has one.
    have hj : ¬ c.isJoinEdge := by
      intro hj
      obtain ⟨nested, hv⟩ := Condition.exists_query_of_isJoinEdge hj
      exact hn nested hj (by rw [Condition.subQuery?, hv])
    rw [collect] at h
    rw [conditionsOf, List.filter_cons_of_neg hj]
    split at h
    · contradiction
    · exact ih h
  | case4 connector negated model target inner rest ihi ihr =>
    simp only [collect, bind_eq_ok, pure_eq_ok] at h
    obtain ⟨inside, hinside, others, hothers, rfl⟩ := h
    rw [conditionsOf, List.filter_append]
    exact List.rel_append (ihi hinside) (ihr hothers)
  | case5 head rest hc hg ih =>
    rw [collect] at h
    · rw [conditionsOf]
      · exact ih h
      all_goals assumption
    all_goals assumption

/-- A plan without groups is one of a query without join conditions. -/
theorem IsPlan.groups_eq_nil_iff {root : String} {edges : List JoinEdge} {groups : List JoinGroup}
    (h : IsPlan root edges groups) : groups = [] ↔ edges = [] := by
  constructor
  · rintro rfl
    exact List.nil_perm.mp h.lossless
  · rintro rfl
    refine List.eq_nil_iff_forall_not_mem.mpr fun group hg => h.edges_ne_nil group hg ?_
    exact List.flatMap_eq_nil_iff.mp (List.perm_nil.mp h.lossless) group hg

namespace Composer

variable {c : Composer}

theorem listCondition_ne_group {m : Model} {f : Field} {op : Operator} {values : List Value}
    {negated : Bool} {body : List Sql.Link} :
    c.listCondition m f op values ≠ .ok (some (.group negated body)) := by
  intro h
  unfold listCondition at h
  split at h
  · obtain ⟨parts, _, h⟩ := bind_eq_ok.mp h
    split at h
    · split at h <;> cases h
    · cases h
    · cases h
  · cases h

theorem columnCondition_eq_ok {m : Model} {f : Field} {op : Operator} {other : FieldRef}
    {p : Sql.Predicate} (h : c.columnCondition m f op other = .ok p) :
    ∃ comparison, p = .comparison comparison := by
  unfold columnCondition at h
  split at h
  · cases h
  · obtain ⟨right, _, h⟩ := bind_eq_ok.mp h
    exact ⟨_, (pure_eq_ok.mp h).symm⟩

theorem literalCondition_eq_ok {m : Model} {f : Field} {op : Operator} {literal : Literal}
    {p : Sql.Predicate} (h : c.literalCondition m f op literal = .ok p) :
    ∃ comparison, p = .comparison comparison := by
  unfold literalCondition at h
  split at h
  · cases h
  · cases h
  · obtain ⟨right, _, h⟩ := bind_eq_ok.mp h
    exact ⟨_, (pure_eq_ok.mp h).symm⟩

theorem selectPredicate_ne_group {left : Sql.Column} {op : Operator}
    {quantifier : Option Quantifier} {inner : Sql.Select} {negated : Bool}
    {body : List Sql.Link} : selectPredicate left op quantifier inner ≠ .group negated body := by
  unfold selectPredicate
  split <;> simp

/-- The operand of a condition is a comparison of its own, never a group. -/
theorem predicate_ne_group {opts : Options} {condition : Condition} {negated : Bool}
    {body : List Sql.Link} : c.predicate opts condition ≠ .ok (some (.group negated body)) := by
  intro h
  obtain ⟨field, op, value, negate, connector, quantifier, join⟩ := condition
  rw [predicate] at h
  obtain ⟨⟨m, f⟩, _, h⟩ := bind_eq_ok.mp h
  dsimp only at h
  generalize (if negate = true then op.invert else op) = effective at h
  split at h
  · split at h
    · obtain ⟨_, _, h⟩ := bind_eq_ok.mp h
      cases h
    · cases h
  · split at h
    · exact listCondition_ne_group h
    · obtain ⟨_, _, h⟩ := bind_eq_ok.mp h
      cases h
    · obtain ⟨p, hp, h⟩ := bind_eq_ok.mp h
      obtain ⟨comparison, rfl⟩ := columnCondition_eq_ok hp
      cases h
    · obtain ⟨p, hp, h⟩ := bind_eq_ok.mp h
      obtain ⟨comparison, rfl⟩ := literalCondition_eq_ok hp
      cases h
    · split at h
      · cases h
      · split at h
        · cases h
        · obtain ⟨_, _, h⟩ := bind_eq_ok.mp h
          exact selectPredicate_ne_group (Option.some.inj (Except.ok.inj h))

/-- The operands of records are those of their other conditions, one for each and in order. -/
theorem conditionsIn_of_links (hp : c.config.emptyList = .refuse)
    (hk : c.config.dedupeConditions = false) {opts : Options} {ops : List Operation}
    {links : List Sql.Link} (h : c.links opts ops = .ok links) :
    List.Forall₂ (fun condition operand => c.predicate opts condition = .ok (some operand))
      ((conditionsOf ops).filter fun condition => !condition.isJoinEdge)
      (Sql.conditionsIn links) := by
  have hsettle : ∀ body, c.settle body = body := fun body => by simp [settle, hk]
  induction ops using conditionsOf.induct generalizing links with
  | case1 =>
    rw [Composer.links, pure_eq_ok] at h
    rw [← h, conditionsOf, Sql.conditionsIn]
    exact .nil
  | case2 condition rest ih =>
    simp only [Composer.links, bind_eq_ok, pure_eq_ok] at h
    obtain ⟨operand, hoperand, others, hothers, rfl⟩ := h
    have hnone := predicate_eq_ok hp hoperand
    rw [conditionsOf]
    cases operand with
    | none =>
      rw [List.filter_cons_of_neg (by simp [← hnone])]
      exact ih hothers
    | some operand =>
      rw [List.filter_cons_of_pos (by simp [← hnone]), Sql.conditionsIn]
      · exact .cons hoperand (ih hothers)
      · rintro negated body rfl
        exact predicate_ne_group hoperand
  | case3 connector negated model target inner rest ihi ihr =>
    simp only [Composer.links, bind_eq_ok, pure_eq_ok, hsettle] at h
    obtain ⟨body, hbody, others, hothers, rfl⟩ := h
    rw [conditionsOf, List.filter_append]
    have hall := List.rel_append (ihi hbody) (ihr hothers)
    -- A group whose body is empty is left out, and then none of its conditions had an operand.
    cases body with
    | nil =>
      rw [Sql.conditionsIn] at hall
      exact hall
    | cons link more =>
      rw [List.isEmpty_cons, if_neg Bool.false_ne_true, Sql.conditionsIn]
      exact hall
  | case4 head rest hc hg ih =>
    rw [Composer.links] at h
    · rw [conditionsOf]
      · exact ih h
      all_goals assumption
    all_goals assumption

end Composer

/-- Where the conditions of a query are: the join conditions one by one in the groups of its plan,
the other ones one by one, and in order, in its filter. -/
structure Placed (c : Composer) (opts : Options) (q : Query) (plan : JoinPlan)
    (links : List Sql.Link) : Prop where
  edges : ∃ edges, List.Forall₂ (Condition.JoinsAs q.model) q.joinConditions edges ∧
    (plan.groups.flatMap JoinGroup.edges).Perm edges
  operands : List.Forall₂ (fun condition operand => c.predicate opts condition = .ok (some operand))
    q.filterConditions (Sql.conditionsIn links)
  /-- No condition is left over. -/
  count : (plan.groups.flatMap JoinGroup.edges).length + (Sql.conditionsIn links).length =
    (conditionsOf q.ops).length

theorem JoinPlan.isEmpty_iff {q : Query} {plan : JoinPlan} (h : JoinPlan.ofQuery q = .ok plan) :
    plan.isEmpty ↔ q.hasJoins = false := by
  obtain ⟨edges, hedges, hplan⟩ := JoinPlan.ofQuery_eq_ok h
  have hlength := (JoinEdge.collect_eq_ok hedges).length_eq
  rw [isEmpty, List.isEmpty_iff, hplan.groups_eq_nil_iff, Query.hasJoins_eq_false_iff,
    ← List.length_eq_zero_iff, ← hlength, List.length_eq_zero_iff]
  rfl

theorem placed_of_eq_ok {c : Composer} (hp : c.config.emptyList = .refuse)
    (hk : c.config.dedupeConditions = false) {opts : Options} {q : Query} {plan : JoinPlan}
    {links : List Sql.Link} (hplan : JoinPlan.ofQuery q = .ok plan)
    (hlinks : c.links opts q.ops = .ok links) : Placed c opts q plan links := by
  obtain ⟨edges, hcollect, hgroups⟩ := JoinPlan.ofQuery_eq_ok hplan
  have hedges := JoinEdge.collect_eq_ok hcollect
  have hoperands := Composer.conditionsIn_of_links hp hk hlinks
  refine ⟨⟨edges, hedges, hgroups.lossless⟩, hoperands, ?_⟩
  calc (plan.groups.flatMap JoinGroup.edges).length + (Sql.conditionsIn links).length
      = edges.length + (Sql.conditionsIn links).length := by rw [hgroups.lossless.length_eq]
    _ = q.joinConditions.length + q.filterConditions.length := by
      rw [← hedges.length_eq, ← hoperands.length_eq]
      rfl
    _ = (conditionsOf q.ops).length := q.length_conditions

/-- Every condition of a query is in one place, as an edge of the plan or as an operand of the
filter. So what a query says about its conditions agrees with what is composed: a plan without
groups means no join condition, a filter without text no other one. -/
theorem condition_has_one_place {c : Composer} (hp : c.config.emptyList = .refuse)
    (hk : c.config.dedupeConditions = false) {opts : Options} {q : Query} {plan : JoinPlan}
    {text : String} (hplan : JoinPlan.ofQuery q = .ok plan)
    (htext : c.filterText opts q = .ok text) :
    (∃ links, c.filter opts q = .ok links ∧ text = Sql.chainText (Sql.linkTexts c.dialect links) ∧
      Placed c opts q plan links) ∧
    q.hasCondition = (q.hasJoins || q.hasFilter) ∧
    (plan.isEmpty ↔ q.hasJoins = false) ∧
    (text = "" ↔ q.hasFilter = false) := by
  obtain ⟨links, hfilter, htext⟩ := bind_eq_ok.mp htext
  obtain rfl := pure_eq_ok.mp htext
  obtain ⟨all, hall, hsettle⟩ := bind_eq_ok.mp hfilter
  obtain rfl : all = links := by simpa [Composer.settle, hk, pure_eq_ok] using hsettle
  refine ⟨⟨all, hfilter, rfl, placed_of_eq_ok hp hk hplan hall⟩, q.hasCondition_eq,
    JoinPlan.isEmpty_iff hplan, ?_⟩
  rw [Sql.chainText_linkTexts_eq_empty_iff, Composer.links_eq_nil_iff hp hall, Query.hasFilter]

/-- Users with a role, one of whose conditions is repeated inside a group. -/
def roleHolders : Query :=
  let admin : Condition := .of ⟨"Role", "name"⟩ .eq (.value (.string "admin"))
  ⟨"User", none, [
    .group ⟨.and, true, some ⟨"User", none, [
      .condition (.joining ⟨"User", "id"⟩ {} ⟨"Role", some ⟨"Role", "userID"⟩, []⟩),
      .condition admin,
      .condition { admin with connector := .or }]⟩⟩,
    .group ⟨.or, false, none⟩]⟩

theorem condition_has_one_place_roleHolders :
    members.keeping.config.emptyList = .refuse ∧
    members.keeping.config.dedupeConditions = false ∧
    ∃ plan text links,
      JoinPlan.ofQuery roleHolders = .ok plan ∧
      members.keeping.filterText {} roleHolders = .ok text ∧
      Placed members.keeping {} roleHolders plan links := by
  have hp : members.keeping.config.emptyList = .refuse := rfl
  have hk : members.keeping.config.dedupeConditions = false := rfl
  have hplan : JoinPlan.ofQuery roleHolders =
      .ok ⟨[⟨"Role", [⟨{}, ⟨"User", "id"⟩, .eq, ⟨"Role", "userID"⟩, .and⟩]⟩]⟩ := by
    cbv
  have htext : members.keeping.filterText {} roleHolders =
      .ok "NOT (\"roles\".\"name\" = 'admin' OR \"roles\".\"name\" = 'admin')" := by
    cbv
  obtain ⟨⟨links, _, _, hplaced⟩, -⟩ := condition_has_one_place hp hk hplan htext
  exact ⟨hp, hk, _, _, links, hplan, htext, hplaced⟩

end SqlCompose
