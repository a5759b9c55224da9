import SqlCompose.Proofs.Meaning.Comparison
import SqlCompose.Proofs.Placement

/-!
# The sense of a join comparison

A join condition compares its own column with the target of a nested query. In the JOIN clause the
side of the model in scope stands on the left, so where the target belongs to the root the sides
change places. The operator stays as it was. With the sides unswapped, and for the operators of
equality, the clause says what the condition says; otherwise it says the opposite order.
-/

namespace SqlCompose

variable {α : Type}

/-- The order of two values turns around when they change places. -/
def Meaning.Oriented (means : Meaning α) : Prop :=
  ∀ a b, means.order b a = (means.order a b).swap

namespace Meaning

theorem Oriented.eq_eq_iff {means : Meaning α} (h : means.Oriented) (a b : α) :
    means.order b a = .eq ↔ means.order a b = .eq := by
  rw [h a b]
  cases means.order a b <;> decide

/-- Equality does not ask which side stands first. -/
theorem Oriented.compare_comm {means : Meaning α} (h : means.Oriented) {op : Operator}
    (hop : op.isEquality) (x y : Option α) : means.compare op y x = means.compare op x y := by
  rcases x with _ | a <;> rcases y with _ | b
  · rfl
  · rfl
  · rfl
  · have hiff := h.eq_eq_iff a b
    rw [compare, compare]
    cases op with
    | eq => simp only [holds, beq_eq_beq.mpr hiff]
    | ne => simp only [holds, bne, beq_eq_beq.mpr hiff]
    | gt | ge | lt | le | like | notLike | rowExists | noRowExists => cases hop

/-- A database in which one operand has the value 1 and every other one the value 0. -/
def marking (text : String) : Meaning Nat where
  operand other := some (if other = text then 1 else 0)
  rows _ := []
  order := Ord.compare
  fits _ _ := false
  agrees a b := a == b

theorem marking_oriented (text : String) : (marking text).Oriented :=
  fun a b => (Nat.compare_swap a b).symm

/-- The order of two operands is not the one of the operands in their places. -/
theorem marking_compare_ne {op : Operator} (hequality : op.isEquality = false)
    (hlike : op.isLike = false) (hexists : op.isExists = false) :
    (marking text).compare op (some 0) (some 1) ≠ (marking text).compare op (some 1) (some 0) := by
  cases op with
  | gt | ge | lt | le => exact Truth.noConfusion
  | eq | ne => cases hequality
  | like | notLike => cases hlike
  | rowExists | noRowExists => cases hexists

end Meaning

namespace Sql

/-- The meaning of a comparison in a join. -/
def ColumnComparison.truth (means : Meaning α) (d : Dialect) (c : ColumnComparison) : Truth :=
  means.compare c.op (means.operand (c.left.text d)) (means.operand (c.right.text d))

/-- A comparison in a join says of any two values what an operator says of two columns. -/
def ColumnComparison.KeepsSense (d : Dialect) (c : ColumnComparison) (op : Operator)
    (own other : Column) : Prop :=
  ∀ (α : Type) (means : Meaning α), means.Oriented →
    c.truth means d = means.compare op (means.operand (own.text d)) (means.operand (other.text d))

/-- The comparisons of JOIN clauses, in the order in which they are written. -/
def comparisonsIn (joins : List Join) : List ColumnComparison :=
  joins.flatMap fun join => join.comparisons.map Prod.snd

/-- With its sides swapped and the operator as it was, a comparison keeps the sense of equality
only. -/
theorem ColumnComparison.keepsSense_swapped_iff {d : Dialect} {op : Operator} {own other : Column}
    (hlike : op.isLike = false) (hexists : op.isExists = false) :
    ColumnComparison.KeepsSense d ⟨other, op, own⟩ op own other ↔
      op.isEquality ∨ own.text d = other.text d := by
  constructor
  · intro h
    by_contra hnot
    obtain ⟨hequality, htext⟩ := not_or.mp hnot
    have hsame := h Nat (Meaning.marking (own.text d)) (Meaning.marking_oriented _)
    simp only [truth, Meaning.marking, if_neg (Ne.symm htext), if_true] at hsame
    exact Meaning.marking_compare_ne (by simpa using hequality) hlike hexists hsame
  · rintro (hop | htext) α means horiented
    · exact horiented.compare_comm hop _ _
    · simp only [truth, htext]

end Sql

/-- The sides of an edge are the columns that its condition compares, or these the other way
around where the target belongs to the root. The operator is that of the condition. -/
theorem JoinEdge.ofCondition_eq_ok {root : String} {c : Condition} {nested : Query}
    {edge : JoinEdge} (h : ofCondition root c nested = .ok edge) :
    ∃ target, nested.target = some target ∧ c.effectiveOp.isLike = false ∧
      edge.op = c.effectiveOp ∧
      (if target.model = root then (target, c.field) else (c.field, target)) =
        (edge.left, edge.right) := by
  unfold ofCondition at h
  cases htarget : nested.target with
  | none => rw [htarget] at h; cases h
  | some target =>
    rw [htarget] at h
    obtain ⟨left, right, hsides⟩ : ∃ left right,
        (if target.model = root then (target, c.field) else (c.field, target)) = (left, right) :=
      ⟨_, _, rfl⟩
    simp only [hsides] at h
    split at h
    · cases h
    · rename_i hlike
      split at h
      · cases h
      · cases h
        exact ⟨target, rfl, by simpa using hlike, rfl, hsides⟩

namespace Composer

variable {c : Composer}

/-- The comparison that a join condition becomes has its sense if the sides are not swapped or do
not matter. -/
def ComparesAs (c : Composer) (root : String) (condition : Condition)
    (comparison : Sql.ColumnComparison) : Prop :=
  ∃ nested target own other, condition.value = .query nested ∧ nested.target = some target ∧
    c.columnOf condition.field true = .ok own ∧ c.columnOf target true = .ok other ∧
    (comparison.KeepsSense c.dialect condition.effectiveOp own other ↔
      (target.model = root →
        condition.effectiveOp.isEquality ∨ own.text c.dialect = other.text c.dialect))

theorem comparesAs_of_edge {root : String} {condition : Condition} {edge : JoinEdge}
    {comparison : Sql.ColumnComparison} (hjoin : condition.isJoinEdge)
    (hedge : condition.JoinsAs root edge) (h : c.edgeComparison edge = .ok comparison) :
    c.ComparesAs root condition comparison := by
  obtain ⟨nested, hvalue, hof⟩ := hedge
  obtain ⟨target, htarget, hlike, hop, hsides⟩ := JoinEdge.ofCondition_eq_ok hof
  have hexists : condition.effectiveOp.isExists = false := by
    rw [Condition.isJoinEdge, Bool.and_eq_true] at hjoin
    rw [Condition.effectiveOp]
    split <;> simpa using hjoin.1
  simp only [edgeComparison, bind_eq_ok, pure_eq_ok] at h
  obtain ⟨left, hleft, right, hright, rfl⟩ := h
  by_cases hroot : target.model = root
  · rw [if_pos hroot] at hsides
    obtain ⟨hl, hr⟩ := Prod.mk.inj hsides
    rw [← hl] at hleft
    rw [← hr] at hright
    refine ⟨nested, target, right, left, hvalue, htarget, hright, hleft, ?_⟩
    rw [hop, Sql.ColumnComparison.keepsSense_swapped_iff hlike hexists]
    exact ⟨fun h _ => h, fun h => h hroot⟩
  · rw [if_neg hroot] at hsides
    obtain ⟨hl, hr⟩ := Prod.mk.inj hsides
    rw [← hl] at hleft
    rw [← hr] at hright
    refine ⟨nested, target, left, right, hvalue, htarget, hleft, hright, ?_⟩
    rw [hop]
    exact ⟨fun _ h => absurd h hroot, fun _ α means _ => rfl⟩

theorem comparesAs_of_edges {root : String} {conditions : List Condition} {edges : List JoinEdge}
    {comparisons : List Sql.ColumnComparison}
    (hjoin : ∀ condition ∈ conditions, condition.isJoinEdge)
    (hedges : List.Forall₂ (Condition.JoinsAs root) conditions edges)
    (hcomparisons : List.Forall₂ (fun edge comparison => c.edgeComparison edge = .ok comparison)
      edges comparisons) : List.Forall₂ (c.ComparesAs root) conditions comparisons := by
  induction hedges generalizing comparisons with
  | nil =>
    cases hcomparisons
    exact .nil
  | cons hedge _ ih =>
    rw [List.forall_mem_cons] at hjoin
    cases hcomparisons with
    | cons hcomparison hrest =>
      exact .cons (comparesAs_of_edge hjoin.1 hedge hcomparison) (ih hjoin.2 hrest)

/-- A JOIN clause has one comparison for each edge of its group. -/
theorem comparisonsIn_of_join {group : JoinGroup} {joins : List Sql.Join}
    (h : c.join group = .ok joins) :
    List.Forall₂ (fun edge comparison => c.edgeComparison edge = .ok comparison) group.edges
      (Sql.comparisonsIn joins) := by
  rw [join, bind_eq_ok] at h
  obtain ⟨m, _, h⟩ := h
  cases hedges : group.edges with
  | nil =>
    rw [hedges] at h
    cases h
    exact .nil
  | cons first more =>
    simp only [hedges, bind_eq_ok, pure_eq_ok] at h
    obtain ⟨comparison, hfirst, _, _, others, hothers, rfl⟩ := h
    have hall := mapM_eq_ok.mp hothers
    rw [Sql.comparisonsIn, List.flatMap_singleton, List.map_cons]
    refine .cons hfirst (List.forall₂_map_right_iff.mpr (hall.imp fun edge entry hentry => ?_))
    simp only [bind_eq_ok, pure_eq_ok] at hentry
    obtain ⟨other, hother, rfl⟩ := hentry
    exact hother

/-- The JOIN clauses of a plan have one comparison for each of its edges. -/
theorem comparisonsIn_of_joins {plan : JoinPlan} {joins : List Sql.Join}
    (h : c.joins plan = .ok joins) :
    List.Forall₂ (fun edge comparison => c.edgeComparison edge = .ok comparison)
      (plan.groups.flatMap JoinGroup.edges) (Sql.comparisonsIn joins) := by
  simp only [Composer.joins, bind_eq_ok, pure_eq_ok] at h
  obtain ⟨parts, hparts, rfl⟩ := h
  have hall := mapM_eq_ok.mp hparts
  clear hparts
  generalize plan.groups = groups at hall
  induction hall with
  | nil => exact .nil
  | cons hpart _ ih =>
    rw [List.flatMap_cons, List.flatten_cons, Sql.comparisonsIn, List.flatMap_append]
    exact List.rel_append (comparisonsIn_of_join hpart) ih

end Composer

/-- Each join condition has one comparison in the JOIN clauses, with the operator of the condition.
It keeps the sense of the condition exactly if the target of the nested query does not belong to
the root, or the operator is one of equality, or both sides are the same column. -/
theorem join_comparison_keeps_sense_iff {c : Composer} {q : Query} {plan : JoinPlan}
    {joins : List Sql.Join} (hplan : JoinPlan.ofQuery q = .ok plan)
    (hjoins : c.joins plan = .ok joins) :
    ∃ comparisons, List.Forall₂ (c.ComparesAs q.model) q.joinConditions comparisons ∧
      comparisons.Perm (Sql.comparisonsIn joins) := by
  obtain ⟨edges, hcollect, hgroups⟩ := JoinPlan.ofQuery_eq_ok hplan
  have hedges := JoinEdge.collect_eq_ok hcollect
  have hjoin : ∀ condition ∈ q.joinConditions, condition.isJoinEdge := fun condition hmem =>
    (List.mem_filter.mp hmem).2
  have hcomparisons := Composer.comparisonsIn_of_joins hjoins
  -- The plan holds the edges in another order, and its comparisons with them.
  obtain ⟨comparisons, hall, hperm⟩ :=
    List.perm_comp_forall₂ hgroups.lossless.symm hcomparisons
  exact ⟨comparisons, Composer.comparesAs_of_edges hjoin hedges hall, hperm⟩

/-- Users and the roles that point past them. The condition starts from the role and its target
belongs to the root. -/
def rolesPastUsers : Query :=
  ⟨"User", none, [
    .condition (.of ⟨"Role", "userID"⟩ .gt (.query ⟨"User", some ⟨"User", "id"⟩, []⟩))]⟩

def rolesPastUsersPlan : JoinPlan :=
  ⟨[⟨"Role", [⟨{}, ⟨"User", "id"⟩, .gt, ⟨"Role", "userID"⟩, .and⟩]⟩]⟩

/-- The comparison in the JOIN clause of that query. -/
def rolesPastUsersComparison : Sql.ColumnComparison :=
  ⟨⟨"users", "id", true⟩, .gt, ⟨"roles", "user_id", true⟩⟩

def rolesPastUsersJoin : Sql.Join :=
  ⟨{}, "roles", [(.and, rolesPastUsersComparison)]⟩

theorem rolesPastUsers_plan : JoinPlan.ofQuery rolesPastUsers = .ok rolesPastUsersPlan := by
  cbv

theorem join_comparison_keeps_sense_iff_roles :
    JoinPlan.ofQuery rolesPastUsers = .ok rolesPastUsersPlan ∧
    members.joins rolesPastUsersPlan = .ok [rolesPastUsersJoin] ∧
    ∃ comparisons, List.Forall₂ (members.ComparesAs "User") rolesPastUsers.joinConditions
      comparisons ∧ comparisons.Perm [rolesPastUsersComparison] := by
  have hjoins : members.joins rolesPastUsersPlan = .ok [rolesPastUsersJoin] := rfl
  exact ⟨rolesPastUsers_plan, hjoins, join_comparison_keeps_sense_iff rolesPastUsers_plan hjoins⟩

/-- A condition on roles that point past a user is written as one on roles that point before it. -/
theorem swapped_join_turns_order :
    JoinPlan.ofQuery rolesPastUsers = .ok rolesPastUsersPlan ∧
    members.joins rolesPastUsersPlan = .ok [rolesPastUsersJoin] ∧
    rolesPastUsersJoin.text .sqlite =
      "INNER JOIN \"roles\" ON \"users\".\"id\" > \"roles\".\"user_id\"" ∧
    ¬ rolesPastUsersComparison.KeepsSense .sqlite .gt ⟨"roles", "user_id", true⟩
      ⟨"users", "id", true⟩ := by
  refine ⟨rolesPastUsers_plan, rfl, rfl, ?_⟩
  rw [rolesPastUsersComparison, Sql.ColumnComparison.keepsSense_swapped_iff rfl rfl]
  decide

end SqlCompose
