import Mathlib.Data.List.Nodup
import SqlCompose.Dialect.Builtin
import SqlCompose.Proofs.Success
import SqlCompose.Select.JoinPlan

/-!
# Join plans keep their edges and introduce every table they name

A plan is made in three steps: the edges are gathered from the records, sorted into groups by
joined model, and the groups are put in order. `IsPlan` says what comes out. The order of the
groups matters only through the tables that their comparisons name, so the last part carries it
over to the JOIN clauses.
-/

namespace SqlCompose

namespace JoinEdge

/-- A model is never joined to itself as the root. -/
theorem ofCondition_right_ne_root {root : String} {c : Condition} {nested : Query}
    {edge : JoinEdge} (h : ofCondition root c nested = .ok edge) : edge.right.model ≠ root := by
  unfold ofCondition at h
  cases ht : nested.target with
  | none => rw [ht] at h; cases h
  | some target =>
    rw [ht] at h
    -- Which side is the left one does not matter here.
    obtain ⟨left, right, hsides⟩ : ∃ left right,
        (if target.model = root then (target, c.field) else (c.field, target)) = (left, right) :=
      ⟨_, _, rfl⟩
    simp only [hsides] at h
    split at h
    · cases h
    · split at h
      · cases h
      · rename_i hr
        cases h
        exact hr

theorem collect_right_ne_root {root : String} {ops : List Operation} {edges : List JoinEdge}
    (h : collect root ops = .ok edges) : ∀ edge ∈ edges, edge.right.model ≠ root := by
  induction ops using collect.induct generalizing edges with
  | case1 =>
    rw [collect, pure_eq_ok] at h
    subst h
    simp
  | case2 c rest nested hs hj ih =>
    simp only [collect, hj, hs, bind_eq_ok, pure_eq_ok] at h
    obtain ⟨edge, he, edges', hrest, rfl⟩ := h
    intro edge' hmem
    rcases List.mem_cons.mp hmem with rfl | hmem
    · exact ofCondition_right_ne_root he
    · exact ih hrest edge' hmem
  | case3 c rest hn ih =>
    rw [collect] at h
    split at h
    · rename_i nested hj hs
      exact absurd hs (hn nested hj)
    · exact ih h
  | case4 connector negated model target inner rest ihi ihr =>
    simp only [collect, bind_eq_ok, pure_eq_ok] at h
    obtain ⟨inside, hi, others, hr, rfl⟩ := h
    intro edge hmem
    rcases List.mem_append.mp hmem with hmem | hmem
    · exact ihi hi edge hmem
    · exact ihr hr edge hmem
  | case5 head rest hc hg ih =>
    rw [collect] at h
    · exact ih h
    · exact hc
    · exact hg

/-- The edges that join a model. -/
def joining (edges : List JoinEdge) (model : String) : List JoinEdge :=
  edges.filter fun edge => edge.right.model == model

theorem getD_foldl_push (edges : List JoinEdge) (groups : OrderedMap (List JoinEdge))
    (model : String) :
    ((edges.foldl (fun groups edge => groups.push edge.right.model edge) groups).get?
        model).getD [] = (groups.get? model).getD [] ++ joining edges model := by
  induction edges generalizing groups with
  | nil => simp [joining]
  | cons edge rest ih =>
    rw [List.foldl_cons, ih, OrderedMap.push, OrderedMap.get?_alter]
    by_cases hm : model = edge.right.model
    · subst hm
      simp [joining]
    · have hm' : ¬ edge.right.model = model := fun he => hm he.symm
      simp [joining, hm, hm']

/-- The group of a model holds its edges in the order in which they were gathered. -/
theorem getD_groupByModel (edges : List JoinEdge) (model : String) :
    ((groupByModel edges).get? model).getD [] = joining edges model := by
  rw [groupByModel, getD_foldl_push]
  rfl

theorem mem_keys_foldl_push (edges : List JoinEdge) (groups : OrderedMap (List JoinEdge))
    (model : String) :
    model ∈ (edges.foldl (fun groups edge => groups.push edge.right.model edge) groups).keys ↔
      model ∈ groups.keys ∨ ∃ edge ∈ edges, edge.right.model = model := by
  induction edges generalizing groups with
  | nil => simp
  | cons edge rest ih =>
    have hk : model ∈ (groups.push edge.right.model edge).keys ↔
        model ∈ groups.keys ∨ edge.right.model = model := by
      rw [OrderedMap.push, OrderedMap.keys_alter]
      split
      · rename_i hmem
        constructor
        · exact Or.inl
        · rintro (h | rfl)
          · exact h
          · exact hmem
      · simp [eq_comm]
    rw [List.foldl_cons, ih, hk]
    simp [or_assoc]

/-- The groups are those of the joined models. -/
theorem mem_keys_groupByModel {edges : List JoinEdge} {model : String} :
    model ∈ (groupByModel edges).keys ↔ ∃ edge ∈ edges, edge.right.model = model := by
  rw [groupByModel, mem_keys_foldl_push]
  simp [OrderedMap.keys, OrderedMap.empty]

/-- Sorting edges by model loses none and repeats none. -/
theorem flatMap_joining_perm {models : List String} {edges : List JoinEdge}
    (hn : models.Nodup) (hc : ∀ edge ∈ edges, edge.right.model ∈ models) :
    (models.flatMap (joining edges)).Perm edges := by
  induction models generalizing edges with
  | nil =>
    have he : edges = [] := List.eq_nil_iff_forall_not_mem.mpr fun edge hmem => by
      cases hc edge hmem
    simp [he]
  | cons model rest ih =>
    obtain ⟨hm, hrest⟩ := List.nodup_cons.mp hn
    let others := edges.filter fun edge => !(edge.right.model == model)
    -- The later models do not see the edges of the first one.
    have hsame : ∀ other ∈ rest, joining edges other = joining others other := by
      intro other ho
      simp only [joining, others, List.filter_filter]
      refine List.filter_congr fun edge _ => ?_
      by_cases he : edge.right.model = other
      · have hne : ¬ other = model := fun heq => hm (heq ▸ ho)
        simp [he, hne]
      · simp [he]
    have hothers : ∀ edge ∈ others, edge.right.model ∈ rest := by
      intro edge hmem
      obtain ⟨he, hne⟩ := List.mem_filter.mp hmem
      rcases List.mem_cons.mp (hc edge he) with heq | hin
      · simp [heq] at hne
      · exact hin
    rw [List.flatMap_cons, List.flatMap_congr hsame]
    exact ((ih hrest hothers).append_left _).trans (List.filter_append_perm _ edges)

end JoinEdge

namespace JoinPlan

/-- A model waits for every other model that its edges refer to. -/
theorem pending_eq_ok {root : String} {groups : OrderedMap (List JoinEdge)} {model : String}
    {edges : List JoinEdge} {p : Pending} (h : pending root groups model edges = .ok p) :
    p.model = model ∧ ∀ edge ∈ edges,
      edge.left.model = root ∨ edge.left.model = model ∨ edge.left.model ∈ p.needs := by
  unfold pending at h
  simp only at h
  split at h
  · cases h
  · cases h
    refine ⟨rfl, fun edge he => ?_⟩
    by_cases hr : edge.left.model = root
    · exact .inl hr
    · by_cases hm : edge.left.model = model
      · exact .inr (.inl hm)
      · refine .inr (.inr (List.mem_filter.mpr ⟨List.mem_map_of_mem he, ?_⟩))
        simp [hr, hm]

/-- Taking out the one pending model of a name takes out nothing else. -/
theorem cons_filter_perm {waiting : List Pending} {next : Pending}
    (hn : (waiting.map Pending.model).Nodup) (hm : next ∈ waiting) :
    (next :: waiting.filter fun p => p.model != next.model).Perm waiting := by
  induction waiting with
  | nil => cases hm
  | cons p rest ih =>
    obtain ⟨hp, hrest⟩ := List.nodup_cons.mp hn
    rcases List.mem_cons.mp hm with rfl | hmem
    · have hkeep : (rest.filter fun p => p.model != next.model) = rest := by
        refine List.filter_eq_self.mpr fun other ho => ?_
        have hne : other.model ≠ next.model := fun he => hp (he ▸ List.mem_map_of_mem ho)
        simpa using hne
      simp [hkeep]
    · have hne : p.model ≠ next.model := by
        intro he
        rw [he] at hp
        exact hp (List.mem_map_of_mem hmem)
      rw [List.filter_cons_of_pos (by simpa using hne)]
      exact (List.Perm.swap _ _ _).trans ((ih hrest hmem).cons p)

/-- A complete placement appends every waiting model once, after all that it waits for. -/
theorem place_eq_ok {rounds : Nat} {waiting : List Pending} {placed order : List String}
    (hn : (waiting.map Pending.model).Nodup) (h : place rounds waiting placed = .ok order) :
    ∃ added : List Pending, order = placed ++ added.map Pending.model ∧ added.Perm waiting ∧
      ∀ before p after, added = before ++ p :: after →
        ∀ need ∈ p.needs, need ∈ placed ++ before.map Pending.model := by
  induction rounds generalizing waiting placed with
  | zero =>
    cases waiting with
    | nil =>
      cases h
      exact ⟨[], by simp, .refl _, fun before p after he => by simp at he⟩
    | cons p rest => cases h
  | succ rounds ih =>
    cases waiting with
    | nil =>
      cases h
      exact ⟨[], by simp, .refl _, fun before p after he => by simp at he⟩
    | cons first others =>
      rw [place] at h
      · split at h
        · cases h
        · rename_i next hnext
          have hmem := List.mem_of_find?_eq_some hnext
          have hready : next.isReady placed := by simpa using List.find?_some hnext
          obtain ⟨added, horder, hperm, hbefore⟩ :=
            ih (hn.sublist (List.filter_sublist.map _)) h
          refine ⟨next :: added, by simp [horder], ?_, ?_⟩
          · exact (hperm.cons next).trans (cons_filter_perm hn hmem)
          · intro before p after he need hneed
            cases before with
            | nil =>
              obtain ⟨rfl, rfl⟩ := List.cons.inj he
              rw [List.map_nil, List.append_nil]
              exact List.contains_iff_mem.mp (List.all_eq_true.mp hready need hneed)
            | cons head before =>
              obtain ⟨rfl, hrest⟩ := List.cons.inj he
              have hin := hbefore before p after hrest need hneed
              simpa using hin
      · simp

/-- The order is one of all joined models, each after the models that its edges refer to. -/
theorem sortModels_eq_ok {root : String} {groups : OrderedMap (List JoinEdge)}
    {order : List String} (h : sortModels root groups = .ok order) :
    order.Perm groups.keys ∧
      ∀ before model after, order = before ++ model :: after →
        ∀ edge ∈ (groups.get? model).getD [],
          edge.left.model = root ∨ edge.left.model = model ∨ edge.left.model ∈ before := by
  rw [sortModels, bind_eq_ok] at h
  obtain ⟨waiting, hw, hplace⟩ := h
  have hall := mapM_eq_ok.mp hw
  have hkeys : waiting.map Pending.model = groups.keys := by
    rw [OrderedMap.keys]
    clear hw hplace
    generalize groups.entries = entries at hall
    induction hall with
    | nil => rfl
    | cons hp _ ih => rw [List.map_cons, List.map_cons, ih, (pending_eq_ok hp).1]
  have hn : (waiting.map Pending.model).Nodup := by
    rw [hkeys]
    exact groups.nodup_keys
  obtain ⟨added, horder, hperm, hbefore⟩ := place_eq_ok hn hplace
  rw [List.nil_append] at horder
  constructor
  · rw [horder, ← hkeys]
    exact hperm.map _
  · intro before model after hsplit edge hedge
    rw [horder] at hsplit
    obtain ⟨pbefore, ptail, hadded, rfl, htail⟩ := List.map_eq_append_iff.mp hsplit
    obtain ⟨p, pafter, rfl, rfl, rfl⟩ := List.map_eq_cons_iff.mp htail
    have hp : p ∈ waiting := hperm.subset (by simp [hadded])
    obtain ⟨⟨key, edges⟩, hentry, hpending⟩ := exists_of_mapM_eq_ok hw hp
    obtain ⟨rfl, hneeds⟩ := pending_eq_ok hpending
    rw [OrderedMap.get?_eq_some_of_mem hentry] at hedge
    rcases hneeds edge hedge with hr | hm | hin
    · exact .inl hr
    · exact .inr (.inl hm)
    · exact .inr (.inr (by simpa using hbefore pbefore p pafter hadded _ hin))

end JoinPlan

/-- What the groups of a plan owe to the edges that they are made of. -/
structure IsPlan (root : String) (edges : List JoinEdge) (groups : List JoinGroup) : Prop where
  lossless : (groups.flatMap JoinGroup.edges).Perm edges
  edges_eq : ∀ group ∈ groups, group.edges = JoinEdge.joining edges group.model
  edges_ne_nil : ∀ group ∈ groups, group.edges ≠ []
  nodup_models : (groups.map JoinGroup.model).Nodup
  root_notMem : root ∉ groups.map JoinGroup.model
  in_scope : ∀ before group after, groups = before ++ group :: after → ∀ edge ∈ group.edges,
    edge.left.model = root ∨ edge.left.model = group.model ∨
      edge.left.model ∈ before.map JoinGroup.model

namespace JoinPlan

theorem ofQuery_eq_ok {q : Query} {plan : JoinPlan} (h : ofQuery q = .ok plan) :
    ∃ edges, JoinEdge.collect q.model q.ops = .ok edges ∧ IsPlan q.model edges plan.groups := by
  simp only [ofQuery, bind_eq_ok, pure_eq_ok, JoinEdge.getD_groupByModel] at h
  obtain ⟨edges, hedges, order, horder, rfl⟩ := h
  obtain ⟨hperm, hscoped⟩ := sortModels_eq_ok horder
  have hmodels : (order.map fun model => JoinGroup.mk model (JoinEdge.joining edges model)).map
      JoinGroup.model = order := by
    rw [List.map_map]
    exact List.map_id' order
  have hmem : ∀ model, model ∈ order ↔ ∃ edge ∈ edges, edge.right.model = model := fun model =>
    hperm.mem_iff.trans JoinEdge.mem_keys_groupByModel
  have hnodup : order.Nodup := hperm.nodup_iff.mpr (JoinEdge.groupByModel edges).nodup_keys
  refine ⟨edges, hedges, ?_, ?_, ?_, ?_, ?_, ?_⟩
  · rw [List.flatMap_map]
    exact JoinEdge.flatMap_joining_perm hnodup fun edge he => (hmem _).mpr ⟨edge, he, rfl⟩
  · intro group hg
    obtain ⟨model, _, rfl⟩ := List.mem_map.mp hg
    rfl
  · intro group hg
    obtain ⟨model, hm, rfl⟩ := List.mem_map.mp hg
    obtain ⟨edge, he, hright⟩ := (hmem model).mp hm
    exact List.ne_nil_of_mem (List.mem_filter.mpr ⟨he, by simp [hright]⟩)
  · rw [hmodels]
    exact hnodup
  · rw [hmodels, hmem]
    rintro ⟨edge, he, hright⟩
    exact JoinEdge.collect_right_ne_root hedges edge he hright
  · intro before group after hsplit edge hedge
    obtain ⟨mbefore, mtail, rfl, rfl, htail⟩ := List.map_eq_append_iff.mp hsplit
    obtain ⟨model, mafter, rfl, rfl, rfl⟩ := List.map_eq_cons_iff.mp htail
    have hs := hscoped mbefore model mafter rfl edge (by
      rw [JoinEdge.getD_groupByModel]
      exact hedge)
    simpa using hs

end JoinPlan

namespace Composer

variable {c : Composer}

/-- A column stands under the table of its model. -/
theorem columnOf_eq_ok {ref : FieldRef} {quoted : Bool} {column : Sql.Column}
    (h : c.columnOf ref quoted = .ok column) :
    ∃ m f, c.schema.model ref.model = .ok m ∧ m.field ref.field = .ok f ∧
      column = ⟨m.table, f.column, quoted⟩ := by
  simp only [columnOf, Schema.resolve, bind_eq_ok, pure_eq_ok] at h
  obtain ⟨⟨m, f⟩, ⟨m', hm, f', hf, heq⟩, rfl⟩ := h
  cases heq
  exact ⟨m, f, hm, hf, rfl⟩

theorem edgeComparison_eq_ok {edge : JoinEdge} {comparison : Sql.ColumnComparison}
    (h : c.edgeComparison edge = .ok comparison) :
    ∃ left right, c.schema.model edge.left.model = .ok left ∧
      c.schema.model edge.right.model = .ok right ∧
      comparison.left.table = left.table ∧ comparison.right.table = right.table := by
  simp only [edgeComparison, bind_eq_ok, pure_eq_ok] at h
  obtain ⟨left, hl, right, hr, rfl⟩ := h
  obtain ⟨lm, _, hlm, _, rfl⟩ := columnOf_eq_ok hl
  obtain ⟨rm, _, hrm, _, rfl⟩ := columnOf_eq_ok hr
  exact ⟨lm, rm, hlm, hrm, rfl, rfl⟩

/-- A JOIN clause stands for a group: it introduces the table of the joined model, and each of
its comparisons is that of an edge. -/
def JoinOf (c : Composer) (group : JoinGroup) (join : Sql.Join) : Prop :=
  ∃ m, c.schema.model group.model = .ok m ∧ join.table = m.table ∧
    ∀ comparison ∈ join.comparisons, ∃ edge ∈ group.edges, c.edgeComparison edge = .ok comparison.2

theorem join_eq_ok {group : JoinGroup} {joins : List Sql.Join} (hne : group.edges ≠ [])
    (h : c.join group = .ok joins) : ∃ join, joins = [join] ∧ c.JoinOf group join := by
  rw [join, bind_eq_ok] at h
  obtain ⟨m, hm, h⟩ := h
  cases hedges : group.edges with
  | nil => exact absurd hedges hne
  | cons first more =>
    simp only [hedges, bind_eq_ok, pure_eq_ok] at h
    obtain ⟨comparison, hfirst, _, _, others, hothers, rfl⟩ := h
    refine ⟨_, rfl, m, hm, rfl, fun entry hentry => ?_⟩
    rcases List.mem_cons.mp hentry with rfl | hentry
    · exact ⟨first, by simp [hedges], hfirst⟩
    · obtain ⟨edge, hedge, he⟩ := exists_of_mapM_eq_ok hothers hentry
      simp only [bind_eq_ok, pure_eq_ok] at he
      obtain ⟨other, hother, rfl⟩ := he
      exact ⟨edge, by simp [hedges, hedge], hother⟩

/-- Every group of a plan has one JOIN clause. -/
theorem joins_eq_ok {plan : JoinPlan} {joins : List Sql.Join}
    (hne : ∀ group ∈ plan.groups, group.edges ≠ []) (h : c.joins plan = .ok joins) :
    List.Forall₂ c.JoinOf plan.groups joins := by
  simp only [Composer.joins, bind_eq_ok, pure_eq_ok] at h
  obtain ⟨parts, hparts, rfl⟩ := h
  have hall := mapM_eq_ok.mp hparts
  clear hparts
  generalize plan.groups = groups at hne hall
  induction hall with
  | nil => exact .nil
  | cons hpart _ ih =>
    obtain ⟨join, rfl, hjoin⟩ := join_eq_ok (hne _ List.mem_cons_self) hpart
    exact .cons hjoin (ih fun group hg => hne group (List.mem_cons_of_mem _ hg))

/-- The tables that the comparisons of a group name are introduced when their turn comes. -/
theorem comparison_in_scope {root : Model} {rootName : String} {edges : List JoinEdge}
    {groups : List JoinGroup} {joins before after : List Sql.Join} {join : Sql.Join}
    (hroot : c.schema.model rootName = .ok root) (hplan : IsPlan rootName edges groups)
    (hall : List.Forall₂ c.JoinOf groups joins) (hsplit : joins = before ++ join :: after)
    {comparison : Connector × Sql.ColumnComparison} (hc : comparison ∈ join.comparisons) :
    comparison.2.right.table = join.table ∧
      comparison.2.left.table ∈ root.table :: (before ++ [join]).map Sql.Join.table := by
  rw [hsplit] at hall
  obtain ⟨gbefore, group, gafter, hgroups, hbefore, m, hm, htable, hcomparisons⟩ :=
    forall₂_append_cons_right hall
  obtain ⟨edge, hedge, he⟩ := hcomparisons comparison hc
  obtain ⟨left, right, hleft, hright, hl, hr⟩ := edgeComparison_eq_ok he
  have hmem : group ∈ groups := by simp [hgroups]
  rw [hl, hr]
  constructor
  · have hin : edge ∈ JoinEdge.joining edges group.model := hplan.edges_eq group hmem ▸ hedge
    have heq : edge.right.model = group.model := by simpa using (List.mem_filter.mp hin).2
    rw [heq, hm] at hright
    cases hright
    exact htable.symm
  · rcases hplan.in_scope gbefore group gafter hgroups edge hedge with heq | heq | hearlier
    · rw [heq, hroot] at hleft
      cases hleft
      simp
    · rw [heq, hm] at hleft
      cases hleft
      simp [htable]
    · obtain ⟨earlier, hin, heq⟩ := List.mem_map.mp hearlier
      obtain ⟨other, hother, m', hm', htable', _⟩ := exists_mem_right_of_forall₂ hbefore hin
      rw [← heq, hm'] at hleft
      cases hleft
      rw [← htable']
      exact List.mem_cons_of_mem _ (List.mem_map_of_mem (List.mem_append_left _ hother))

end Composer

/-- Permissions of the roles of users, where the permissions are asked for first and the roles
inside a group. -/
def permissionsBeforeRoles : Query :=
  ⟨"User", none, [
    .condition (.joining ⟨"Role", "id"⟩ {} ⟨"Permission", some ⟨"Permission", "roleID"⟩, []⟩),
    .group ⟨.and, false, some ⟨"User", none, [
      .condition (.joining ⟨"User", "id"⟩ {} ⟨"Role", some ⟨"Role", "userID"⟩, []⟩)]⟩⟩]⟩

def rolesBeforePermissions : JoinPlan :=
  ⟨[⟨"Role", [⟨{}, ⟨"User", "id"⟩, .eq, ⟨"Role", "userID"⟩, .and⟩]⟩,
    ⟨"Permission", [⟨{}, ⟨"Role", "id"⟩, .eq, ⟨"Permission", "roleID"⟩, .and⟩]⟩]⟩

/-- A plan holds every edge of its query once, in the group of its joined model and in order, and
no comparison of its JOIN clauses names a table before FROM, an earlier clause or its own one has
introduced it. -/
theorem plan_lossless_and_in_scope {q : Query} {plan : JoinPlan}
    (h : JoinPlan.ofQuery q = .ok plan) :
    (∃ edges, JoinEdge.collect q.model q.ops = .ok edges ∧ IsPlan q.model edges plan.groups) ∧
      ∀ (c : Composer) (scope : Scope) (joins : List Sql.Join),
        c.scope q plan = .ok scope → c.joins plan = .ok joins →
          ∀ before join after, joins = before ++ join :: after →
            ∀ comparison ∈ join.comparisons,
              comparison.2.right.table = join.table ∧
                comparison.2.left.table ∈
                  scope.root.table :: (before ++ [join]).map Sql.Join.table := by
  obtain ⟨edges, hedges, hplan⟩ := JoinPlan.ofQuery_eq_ok h
  refine ⟨⟨edges, hedges, hplan⟩, ?_⟩
  intro c scope joins hscope hjoins before join after hsplit comparison hc
  simp only [Composer.scope, bind_eq_ok, pure_eq_ok] at hscope
  obtain ⟨root, hroot, joined, _, rfl⟩ := hscope
  have hall := Composer.joins_eq_ok hplan.edges_ne_nil hjoins
  exact Composer.comparison_in_scope hroot hplan hall hsplit hc

/-- A table of a number and of references to other tables. -/
def numberedModel (name table : String) (references : List (String × String)) : Model :=
  ⟨name, table,
    { Field.named "id" (.integer 8) with column := "id", model := name, primaryKey := true } ::
      references.map fun (field, column) =>
        { Field.named field (.integer 8) with column := column, model := name }⟩

/-- Users, their roles and the permissions of these. -/
def access : Composer where
  schema := ⟨⟨[
    ("User", numberedModel "User" "users" []),
    ("Role", numberedModel "Role" "roles" [("userID", "user_id")]),
    ("Permission", numberedModel "Permission" "permissions" [("roleID", "role_id")])],
    by decide⟩, by decide⟩
  dialect := .sqlite
  config := {}

def rolesJoin : Sql.Join :=
  ⟨{}, "roles", [(.and, ⟨⟨"users", "id", true⟩, .eq, ⟨"roles", "user_id", true⟩⟩)]⟩

def permissionsJoin : Sql.Join :=
  ⟨{}, "permissions", [(.and, ⟨⟨"roles", "id", true⟩, .eq, ⟨"permissions", "role_id", true⟩⟩)]⟩

theorem plan_lossless_and_in_scope_roles :
    JoinPlan.ofQuery permissionsBeforeRoles = .ok rolesBeforePermissions ∧
      (∃ edges, JoinEdge.collect "User" permissionsBeforeRoles.ops = .ok edges ∧
        IsPlan "User" edges rolesBeforePermissions.groups) ∧
      access.joins rolesBeforePermissions = .ok [rolesJoin, permissionsJoin] ∧
      ∃ scope, access.scope permissionsBeforeRoles rolesBeforePermissions = .ok scope ∧
        ∀ comparison ∈ permissionsJoin.comparisons, comparison.2.right.table = "permissions" ∧
          comparison.2.left.table ∈
            scope.root.table :: ([rolesJoin] ++ [permissionsJoin]).map Sql.Join.table := by
  have h : JoinPlan.ofQuery permissionsBeforeRoles = .ok rolesBeforePermissions := by cbv
  have hjoins : access.joins rolesBeforePermissions = .ok [rolesJoin, permissionsJoin] := rfl
  obtain ⟨scope, hscope⟩ :
      ∃ scope, access.scope permissionsBeforeRoles rolesBeforePermissions = .ok scope := ⟨_, rfl⟩
  obtain ⟨hlossless, hinScope⟩ := plan_lossless_and_in_scope h
  exact ⟨h, hlossless, hjoins, scope, hscope,
    hinScope access scope _ hscope hjoins [rolesJoin] permissionsJoin [] rfl⟩

end SqlCompose
