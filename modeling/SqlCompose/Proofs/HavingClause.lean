import SqlCompose.Proofs.Interleaving
import SqlCompose.Proofs.Placement

/-!
# The HAVING clause

The last HAVING record of a query is a filter of the groups, so its clause belongs to GROUP BY: it
stands right behind it, and a statement without GROUP BY has none. In the clause every condition of
the record that joins no model stands as an operand, inside the parentheses of its groups. A repeat
may be left out, even a whole group, but what is left has the text of what is gone. A condition of
the record that joins a model is neither an operand nor an edge of the plan: it leaves no trace.
-/

namespace SqlCompose

namespace Sql

/-- A text that is an operand, or one of the operands inside its parentheses, at any depth. -/
inductive StandsIn (text : String) : String → Prop
  | self : StandsIn text text
  | inside {texts : List (Connector × String)} {connector : Connector} {operand : String}
      (negated : Bool) (hmem : (connector, operand) ∈ texts) (h : StandsIn text operand) :
      StandsIn text ((if negated then "NOT (" else "(") ++ chainText texts ++ ")")

theorem mem_linkTexts (d : Dialect) {link : Link} {links : List Link} (h : link ∈ links) :
    (link.connector, link.operand.text d) ∈ linkTexts d links := by
  induction links with
  | nil => cases h
  | cons first rest ih =>
    obtain ⟨connector, operand⟩ := first
    rw [linkTexts]
    rcases List.mem_cons.mp h with rfl | hrest
    · exact List.mem_cons_self
    · exact List.mem_cons_of_mem _ (ih hrest)

/-- The text of a SELECT up to its WHERE clause. -/
def Select.beforeGroups (d : Dialect) (s : Select) : String :=
  s.opening d ++ whereText (s.correlation.map (·.text d)) (chainText (linkTexts d s.filter))

/-- The text of a SELECT from its ORDER BY clause on. -/
def Select.afterHaving (d : Dialect) (s : Select) : String :=
  clauseText " ORDER BY " (s.orderBy.map (·.text d)) ++ s.rows.text d

theorem Select.text_eq_groups (d : Dialect) (s : Select) :
    s.text d = s.beforeGroups d ++ clauseText " GROUP BY " (s.groupBy.map (·.text d)) ++
      havingText (chainText (linkTexts d s.having)) ++ s.afterHaving d := by
  rw [s.text_eq]
  simp only [closing, beforeGroups, afterHaving, String.append_assoc]

end Sql

/-- What is left out as a repeat has the text of something that is kept. -/
theorem exists_mem_dropRepeats (d : Dialect) {link : Sql.Link} {links : List Sql.Link}
    (h : link ∈ links) (previous : Option String) :
    previous = some (link.operand.text d) ∨
      ∃ kept ∈ dropRepeats d previous links, kept.operand.text d = link.operand.text d := by
  induction links generalizing previous with
  | nil => cases h
  | cons first rest ih =>
    rw [dropRepeats]
    by_cases hrepeat : previous = some (first.operand.text d)
    · rw [if_pos hrepeat]
      rcases List.mem_cons.mp h with rfl | hrest
      · exact .inl hrepeat
      · exact ih hrest previous
    · rw [if_neg hrepeat]
      right
      rcases List.mem_cons.mp h with rfl | hrest
      · exact ⟨link, List.mem_cons_self, rfl⟩
      · rcases ih hrest (some (first.operand.text d)) with hsame | ⟨kept, hkept, htext⟩
        · exact ⟨first, List.mem_cons_self, Option.some.inj hsame⟩
        · exact ⟨kept, List.mem_cons_of_mem _ hkept, htext⟩

namespace Composer

variable {c : Composer}

theorem exists_mem_settle {link : Sql.Link} {links : List Sql.Link} (h : link ∈ links) :
    ∃ kept ∈ c.settle links, kept.operand.text c.dialect = link.operand.text c.dialect := by
  unfold settle
  split
  · exact (exists_mem_dropRepeats c.dialect h none).resolve_left nofun
  · exact ⟨link, h, rfl⟩

/-- A condition that stands in an operand of a filter. -/
def ShownBy (c : Composer) (opts : Options) (condition : Condition) (links : List Sql.Link) :
    Prop :=
  ∃ operand, c.predicate opts condition = .ok (some operand) ∧
    ∃ link ∈ links, Sql.StandsIn (operand.text c.dialect) (link.operand.text c.dialect)

namespace ShownBy

variable {opts : Options} {condition : Condition} {links others : List Sql.Link}

theorem mono (h : c.ShownBy opts condition links) (hsub : links ⊆ others) :
    c.ShownBy opts condition others := by
  obtain ⟨operand, hoperand, link, hlink, hstands⟩ := h
  exact ⟨operand, hoperand, link, hsub hlink, hstands⟩

/-- Leaving out repeats hides no condition. -/
theorem settle (h : c.ShownBy opts condition links) : c.ShownBy opts condition (c.settle links) := by
  obtain ⟨operand, hoperand, link, hlink, hstands⟩ := h
  obtain ⟨kept, hkept, htext⟩ := exists_mem_settle (c := c) hlink
  refine ⟨operand, hoperand, kept, hkept, ?_⟩
  rw [htext]
  exact hstands

/-- A group shows what its body shows. -/
theorem group (h : c.ShownBy opts condition links) (connector : Connector) (negated : Bool) :
    c.ShownBy opts condition [⟨connector, .group negated links⟩] := by
  obtain ⟨operand, hoperand, link, hlink, hstands⟩ := h
  refine ⟨operand, hoperand, _, List.mem_singleton_self _, ?_⟩
  rw [Sql.Predicate.text]
  exact .inside negated (Sql.mem_linkTexts c.dialect hlink) hstands

theorem ne_nil (h : c.ShownBy opts condition links) : links ≠ [] := by
  obtain ⟨_, _, link, hlink, _⟩ := h
  exact List.ne_nil_of_mem hlink

end ShownBy

/-- The operands of records show all of their conditions that join no model. -/
theorem shownBy_of_links (hp : c.config.emptyList = .refuse) {opts : Options}
    {ops : List Operation} {links : List Sql.Link} (h : c.links opts ops = .ok links) :
    ∀ condition ∈ (conditionsOf ops).filter fun condition => !condition.isJoinEdge,
      c.ShownBy opts condition links := by
  induction ops using conditionsOf.induct generalizing links with
  | case1 =>
    rw [conditionsOf, List.filter_nil]
    exact List.forall_mem_nil _
  | case2 condition rest ih =>
    simp only [Composer.links, bind_eq_ok, pure_eq_ok] at h
    obtain ⟨operand, hoperand, others, hothers, rfl⟩ := h
    have hnone := predicate_eq_ok hp hoperand
    rw [conditionsOf]
    cases operand with
    | none =>
      rw [List.filter_cons_of_neg (by simp [← hnone])]
      exact ih hothers
    | some operand =>
      rw [List.filter_cons_of_pos (by simp [← hnone]), List.forall_mem_cons]
      refine ⟨⟨operand, hoperand, _, List.mem_cons_self, .self⟩, fun other hother => ?_⟩
      exact (ih hothers other hother).mono (List.subset_cons_self _ _)
  | case3 connector negated model target inner rest ihi ihr =>
    simp only [Composer.links, bind_eq_ok, pure_eq_ok] at h
    obtain ⟨body, hbody, others, hothers, rfl⟩ := h
    rw [conditionsOf, List.filter_append, List.forall_mem_append]
    constructor
    · intro condition hcondition
      have hinside := (ihi hbody condition hcondition).settle
      rw [if_neg (by simpa using hinside.ne_nil)]
      exact (hinside.group connector negated).mono (by simp)
    · intro condition hcondition
      refine (ihr hothers condition hcondition).mono ?_
      split
      · exact List.Subset.refl _
      · exact List.subset_cons_self _ _
  | case4 head rest hc hg ih =>
    rw [Composer.links] at h
    · rw [conditionsOf]
      · exact ih h
      all_goals assumption
    all_goals assumption

/-- The HAVING clause of a composed statement is the filter of the last HAVING record, and there is
none without GROUP BY. -/
theorem ComposedFrom.having_links {opts : Options} {correlation : Option Sql.Correlation}
    {q : Query} {plan : JoinPlan} {scope : Scope} {columns : ResultColumns} {s : Sql.Select}
    (h : c.ComposedFrom opts correlation q plan scope columns s) {having : Query}
    (hlast : q.having? = some having) :
    (s.groupBy = [] → s.having = []) ∧
      (s.groupBy ≠ [] → c.filter (c.clauseOptions opts q columns) having = .ok s.having) := by
  obtain ⟨links, hlinks, hhaving⟩ := h.having_eq
  constructor
  · intro hnone
    rw [hnone, List.isEmpty_nil, if_pos rfl, pure_eq_ok] at hlinks
    rw [hhaving, ← hlinks, settle_eq_nil_iff]
  · intro hsome
    rw [if_neg (by simpa using hsome), havingLinks_eq, hlast] at hlinks
    have hfilter : c.links (c.clauseOptions opts q columns) having.ops = .ok links := hlinks
    rw [filter, hfilter, hhaving]
    rfl

end Composer

/-- Where lists must not be empty, a SELECT statement with a GROUP BY clause has a HAVING clause
right behind it, if the last HAVING record has a condition that joins no model. Each such condition
of the record stands in it as an operand, and with repeats kept they are its operands one by one and
in order. A statement without GROUP BY clause has no HAVING clause. -/
theorem having_shows_conditions {c : Composer} (hp : c.config.emptyList = .refuse)
    {opts : Options} {q having : Query} {r : SelectQuery} (hlast : q.having? = some having)
    (h : c.select opts q = .ok r) :
    ∃ columns s, c.selectTree { opts with statement := .select } none q = .ok (columns, s) ∧
      c.groupExprs (c.clauseOptions { opts with statement := .select } q columns) q =
        .ok s.groupBy ∧
      (s.groupBy = [] → r.sql = s.beforeGroups c.dialect ++ s.afterHaving c.dialect) ∧
      (s.groupBy ≠ [] → having.filterConditions ≠ [] → ∃ text,
        c.filterText (c.clauseOptions { opts with statement := .select } q columns) having =
          .ok text ∧
        r.sql = s.beforeGroups c.dialect ++
          (" GROUP BY " ++ ", ".intercalate (s.groupBy.map (·.text c.dialect))) ++
          (" HAVING (" ++ text ++ ")") ++ s.afterHaving c.dialect ∧
        (∀ condition ∈ having.filterConditions,
          c.ShownBy (c.clauseOptions { opts with statement := .select } q columns) condition
            s.having) ∧
        (c.config.dedupeConditions = false →
          List.Forall₂ (fun condition operand =>
              c.predicate (c.clauseOptions { opts with statement := .select } q columns)
                condition = .ok (some operand))
            having.filterConditions (Sql.conditionsIn s.having))) := by
  simp only [Composer.select, bind_eq_ok, pure_eq_ok] at h
  obtain ⟨⟨columns, s⟩, htree, rfl⟩ := h
  obtain ⟨plan, scope, hcomposed⟩ := Composer.selectTree_eq_ok htree
  obtain ⟨hnone, hsome⟩ := hcomposed.having_links hlast
  refine ⟨columns, s, htree, hcomposed.groupBy_eq, fun hgroups => ?_, fun hgroups hfilter => ?_⟩
  · show s.text c.dialect = _
    rw [s.text_eq_groups, hnone hgroups, hgroups]
    simp [Sql.clauseText, Sql.havingText, Sql.linkTexts, Sql.chainText]
  · have hkept := hsome hgroups
    obtain ⟨links, hlinks, hsettle⟩ := bind_eq_ok.mp hkept
    have hsettle : c.settle links = s.having := pure_eq_ok.mp hsettle
    have hshown : ∀ condition ∈ having.filterConditions, c.ShownBy
        (c.clauseOptions { opts with statement := .select } q columns) condition s.having := by
      intro condition hcondition
      rw [← hsettle]
      exact (Composer.shownBy_of_links hp hlinks condition hcondition).settle
    have htext : Sql.chainText (Sql.linkTexts c.dialect s.having) ≠ "" := by
      obtain ⟨condition, hcondition⟩ := List.exists_mem_of_ne_nil _ hfilter
      rw [ne_eq, Sql.chainText_linkTexts_eq_empty_iff]
      exact (hshown condition hcondition).ne_nil
    refine ⟨Sql.chainText (Sql.linkTexts c.dialect s.having), ?_, ?_, hshown, fun hk => ?_⟩
    · rw [Composer.filterText, hkept]
      rfl
    · show s.text c.dialect = _
      rw [s.text_eq_groups, Sql.havingText, if_neg htext, Sql.clauseText,
        if_neg (by simpa using hgroups)]
    · have hall : c.settle links = links := by simp [Composer.settle, hk]
      rw [← hsettle, hall]
      exact Composer.conditionsIn_of_links hp hk hlinks

/-- The person with one number, and old people. -/
def firstOrOld : Query :=
  ⟨"Person", none, [
    .condition (.of ⟨"Person", "id"⟩ .eq (.value (.int 1))),
    .group ⟨.or, true, some ⟨"Person", none, [
      .condition (.of ⟨"Person", "age"⟩ .le (.value (.int 60)))]⟩⟩]⟩

/-- The names of these people, where they come in groups of one name each. -/
def namesOfFirstOrOld : Query :=
  ⟨"Person", none, [
    .project ⟨.replace, [.field ⟨"Person", "name"⟩]⟩,
    .groupBy [.field ⟨"Person", "name"⟩],
    .having firstOrOld]⟩

theorem length_filterConditions_firstOrOld : firstOrOld.filterConditions.length = 2 := by
  simp [firstOrOld, Query.filterConditions, conditionsOf]
  rfl

theorem having_shows_conditions_firstOrOld :
    people.config.emptyList = .refuse ∧ namesOfFirstOrOld.having? = some firstOrOld ∧
    firstOrOld.filterConditions.length = 2 ∧
    ∃ r opts links, people.select { noProjectionAliases := true } namesOfFirstOrOld = .ok r ∧
      r.sql = "SELECT \"people\".\"name\" FROM \"people\" GROUP BY \"people\".\"name\" " ++
        "HAVING (\"people\".\"id\" = 1 OR NOT (\"people\".\"age\" <= 60))" ∧
      ∀ condition ∈ firstOrOld.filterConditions, people.ShownBy opts condition links := by
  have hp : people.config.emptyList = .refuse := rfl
  have hlast : namesOfFirstOrOld.having? = some firstOrOld := rfl
  have hsql : (people.select { noProjectionAliases := true } namesOfFirstOrOld).map (·.sql) = .ok
      ("SELECT \"people\".\"name\" FROM \"people\" GROUP BY \"people\".\"name\" " ++
        "HAVING (\"people\".\"id\" = 1 OR NOT (\"people\".\"age\" <= 60))") := by
    decide +kernel
  have hcolumn : ∀ opts, people.groupExprs opts namesOfFirstOrOld =
      .ok [.column ⟨"people", "name", true⟩] := fun _ => rfl
  obtain ⟨r, hselect, hr⟩ := map_eq_ok.mp hsql
  obtain ⟨columns, s, -, hgroups, -, hsome⟩ := having_shows_conditions hp hlast hselect
  have hne : s.groupBy ≠ [] := by
    rw [hcolumn, Except.ok.injEq] at hgroups
    rw [← hgroups]
    exact List.cons_ne_nil _ _
  obtain ⟨_, _, _, hshown, -⟩ := hsome hne (List.ne_nil_of_length_eq_add_one
    length_filterConditions_firstOrOld)
  exact ⟨hp, hlast, length_filterConditions_firstOrOld, r, _, s.having, hselect, hr, hshown⟩

/-- The names of these people, where they do not come in groups. -/
def ungroupedNames : Query :=
  ⟨"Person", none, [
    .project ⟨.replace, [.field ⟨"Person", "name"⟩]⟩,
    .having firstOrOld]⟩

/-- Without GROUP BY the conditions of a HAVING record stand nowhere. -/
theorem having_without_groups :
    people.config.emptyList = .refuse ∧ ungroupedNames.having? = some firstOrOld ∧
    firstOrOld.filterConditions.length = 2 ∧
    (people.select { noProjectionAliases := true } ungroupedNames).map (·.sql) =
      .ok "SELECT \"people\".\"name\" FROM \"people\"" ∧
    ¬ " HAVING (".toList <:+: "SELECT \"people\".\"name\" FROM \"people\"".toList := by
  refine ⟨rfl, rfl, length_filterConditions_firstOrOld, ?_, ?_⟩ <;> decide +kernel

/-- Records without the conditions that join a model, inside groups too. -/
def withoutEdges : List Operation → List Operation
  | [] => []
  | .condition c :: rest =>
      if c.isJoinEdge then withoutEdges rest else .condition c :: withoutEdges rest
  | .group ⟨connector, negated, some ⟨model, target, inner⟩⟩ :: rest =>
      .group ⟨connector, negated, some ⟨model, target, withoutEdges inner⟩⟩ :: withoutEdges rest
  | op :: rest => op :: withoutEdges rest

/-- All other conditions stay. -/
theorem conditionsOf_withoutEdges (ops : List Operation) :
    conditionsOf (withoutEdges ops) =
      (conditionsOf ops).filter fun condition => !condition.isJoinEdge := by
  induction ops using conditionsOf.induct with
  | case1 => simp [withoutEdges, conditionsOf]
  | case2 condition rest ih =>
    rw [withoutEdges, conditionsOf]
    by_cases hj : condition.isJoinEdge
    · rw [if_pos hj, List.filter_cons_of_neg (by simp [hj]), ih]
    · rw [if_neg hj, List.filter_cons_of_pos (by simp [hj]), conditionsOf, ih]
  | case3 connector negated model target inner rest ihi ihr =>
    rw [withoutEdges, conditionsOf, conditionsOf, List.filter_append, ihi, ihr]
  | case4 head rest hc hg ih =>
    rw [withoutEdges, conditionsOf, conditionsOf, ih]
    all_goals assumption

/-- A query without its conditions that join a model. -/
def Query.withoutEdges (q : Query) : Query := { q with ops := SqlCompose.withoutEdges q.ops }

namespace Composer

variable {c : Composer} {opts : Options}

/-- A condition that joins a model is looked up, but it is no operand. -/
theorem predicate_of_isJoinEdge {condition : Condition} (hj : condition.isJoinEdge)
    {operand : Option Sql.Predicate} (h : c.predicate opts condition = .ok operand) :
    operand = none := by
  obtain ⟨nested, hvalue⟩ := Condition.exists_query_of_isJoinEdge hj
  obtain ⟨field, op, value, negate, connector, quantifier, join⟩ := condition
  subst hvalue
  obtain ⟨hexists, hnested⟩ : op.isExists = false ∧ nested.hasCondition = false := by
    simpa [Condition.isJoinEdge] using hj
  have heffective : (if negate = true then op.invert else op).isExists = false := by
    split <;> simp [hexists]
  rw [predicate] at h
  obtain ⟨⟨m, f⟩, _, h⟩ := bind_eq_ok.mp h
  simp only [heffective, hnested, Bool.false_eq_true, if_false, Bool.not_false, if_true] at h
  exact (pure_eq_ok.mp h).symm

/-- The operands of records are those of the records without edges. -/
theorem links_withoutEdges {ops : List Operation} {links : List Sql.Link}
    (h : c.links opts ops = .ok links) : c.links opts (withoutEdges ops) = .ok links := by
  induction ops using conditionsOf.induct generalizing links with
  | case1 =>
    rw [withoutEdges]
    exact h
  | case2 condition rest ih =>
    simp only [Composer.links, bind_eq_ok, pure_eq_ok] at h
    obtain ⟨operand, hoperand, others, hothers, rfl⟩ := h
    rw [withoutEdges]
    by_cases hj : condition.isJoinEdge
    · rw [if_pos hj, predicate_of_isJoinEdge hj hoperand]
      exact ih hothers
    · rw [if_neg hj]
      simp only [Composer.links, bind_eq_ok, pure_eq_ok]
      exact ⟨operand, hoperand, others, ih hothers, rfl⟩
  | case3 connector negated model target inner rest ihi ihr =>
    simp only [Composer.links, bind_eq_ok, pure_eq_ok] at h
    obtain ⟨body, hbody, others, hothers, rfl⟩ := h
    simp only [withoutEdges, Composer.links, bind_eq_ok, pure_eq_ok]
    exact ⟨body, ihi hbody, others, ihr hothers, rfl⟩
  | case4 head rest hc hg ih =>
    rw [Composer.links] at h
    · rw [withoutEdges, Composer.links]
      · exact ih h
      all_goals assumption
    all_goals assumption

end Composer

section HavingRecord

variable {model : String} {target : Option FieldRef} {before after : List Operation}

/-- Only the HAVING clause reads a HAVING record. -/
theorem agreesButHaving (having having' : Query) :
    Query.AgreesButHaving ⟨model, target, before ++ .having having :: after⟩
      ⟨model, target, before ++ .having having' :: after⟩ where
  model := rfl
  target := rfl
  filter := by simp [recordsOf_append, recordsOf_cons, Operation.family]
  projections := by simp [Query.projections, List.filterMap_cons, Operation.projection?]
  order := by simp [Query.order, List.filterMap_cons, Operation.orderClause?]
  groupBy := by simp [Query.groupBy, Operation.groupExprs]
  distinct := by simp [Query.distinct?, Query.last?_eq, List.filterMap_cons, Operation.distinct?]
  limit := by simp [Query.limit?, Query.last?_eq, List.filterMap_cons, Operation.limit?]
  offset := by simp [Query.offset?, Query.last?_eq, List.filterMap_cons, Operation.offset?]

/-- A HAVING record counts unless a later one does. -/
theorem having?_append (having : Query) :
    Query.having? ⟨model, target, before ++ .having having :: after⟩ =
      ((after.filterMap Operation.having?).getLast?).or (some having) := by
  rw [Query.having?, Query.last?_eq, List.filterMap_append,
    List.filterMap_cons_some (f := Operation.having?) rfl]
  cases after.filterMap Operation.having? <;> simp [List.getLast?_append, List.getLast?_cons]

/-- The conditions of a HAVING record that join a model leave no trace: a SELECT statement with them
is the one of all other conditions of that record. -/
theorem having_edges_leave_no_trace {c : Composer} {opts : Options} {having : Query}
    {r : SelectQuery}
    (h : c.select opts ⟨model, target, before ++ .having having :: after⟩ = .ok r) :
    having.withoutEdges.joinConditions = [] ∧
    having.withoutEdges.filterConditions = having.filterConditions ∧
    c.select opts ⟨model, target, before ++ .having having.withoutEdges :: after⟩ = .ok r := by
  have hconditions : conditionsOf having.withoutEdges.ops = having.filterConditions :=
    conditionsOf_withoutEdges having.ops
  refine ⟨?_, ?_, ?_⟩
  · rw [Query.joinConditions, hconditions, Query.filterConditions, List.filter_filter]
    simp
  · rw [Query.filterConditions, hconditions, Query.filterConditions, List.filter_filter]
    simp
  · simp only [Composer.select, bind_eq_ok] at h ⊢
    obtain ⟨⟨columns, s⟩, htree, hr⟩ := h
    obtain ⟨plan, scope, hcomposed⟩ := Composer.selectTree_eq_ok htree
    refine ⟨(columns, s), (hcomposed.congr (agreesButHaving having having.withoutEdges)
      fun o links hlinks => ?_).selectTree_eq, hr⟩
    rw [Composer.havingLinks_eq, having?_append] at hlinks ⊢
    cases hlast : (after.filterMap Operation.having?).getLast? with
    | none =>
      rw [hlast] at hlinks
      exact Composer.links_withoutEdges hlinks
    | some later =>
      rw [hlast] at hlinks
      exact hlinks

end HavingRecord

/-- Users past the roles, by a condition that joins a model. -/
def pastRoles : Query :=
  ⟨"User", none, [
    .condition (.of ⟨"User", "id"⟩ .gt (.query ⟨"Role", some ⟨"Role", "userID"⟩, []⟩))]⟩

/-- The numbers of users, where they come in groups of one number each. -/
def numbersHaving (having : Query) : Query :=
  ⟨"User", none, [.groupBy [.field ⟨"User", "id"⟩]] ++ [.having having]⟩

theorem pastRoles_withoutEdges : pastRoles.withoutEdges = ⟨"User", none, []⟩ := by
  cbv

/-- The roles stand nowhere, and no error says so. -/
theorem having_edges_leave_no_trace_pastRoles :
    pastRoles.joinConditions.length = 1 ∧
    (members.select { noProjectionAliases := true } (numbersHaving pastRoles)).map (·.sql) =
      .ok "SELECT \"users\".\"id\" FROM \"users\" GROUP BY \"users\".\"id\"" := by
  refine ⟨by cbv, ?_⟩
  have hok : (members.selectTree { noProjectionAliases := true, statement := .select } none
      (numbersHaving pastRoles)).isOk := by
    cbv
  obtain ⟨⟨columns, s⟩, htree⟩ := exists_of_isOk hok
  have h : members.select { noProjectionAliases := true } (numbersHaving pastRoles) =
      .ok ⟨s.text members.dialect, none⟩ := by
    rw [Composer.select, htree]
    rfl
  have hleft := (having_edges_leave_no_trace h).2.2
  rw [pastRoles_withoutEdges] at hleft
  rw [h, ← hleft]
  decide +kernel

end SqlCompose
