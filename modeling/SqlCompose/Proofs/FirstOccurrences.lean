/-!
# First occurrences

A list without its repetitions: an entry stays unless an earlier one is the same. What counts as the
same is up to the caller, and need not hold of an entry and itself.
-/

namespace SqlCompose

variable {α : Type} {same : α → α → Bool}

/-- The entries of a list that are the same as no earlier entry, in order. -/
def firstOccurrences (same : α → α → Bool) (entries : List α) : List α :=
  (entries.zipIdx.filter fun (x, i) => !(entries.take i).any (same · x)).map Prod.fst

theorem firstOccurrences_nil : firstOccurrences same [] = [] := rfl

/-- The first entry comes first, and takes those that are the same out of what follows it. -/
theorem firstOccurrences_cons (x : α) (rest : List α) :
    firstOccurrences same (x :: rest) =
      x :: (firstOccurrences same rest).filter fun y => !same x y := by
  have hrest : (rest.zipIdx 1).filter
        (fun (y, i) => !((x :: rest).take i).any (same · y)) =
      ((rest.zipIdx.filter fun (y, i) => !(rest.take i).any (same · y)).filter
        fun (y, _) => !same x y).map (Prod.map id (· + 1)) := by
    rw [List.filter_filter, List.zipIdx_succ, List.filter_map]
    congr 1
    refine List.filter_congr fun (y, i) _ => ?_
    simp
  rw [firstOccurrences, firstOccurrences, List.zipIdx_cons, List.filter_cons, Nat.zero_add, hrest,
    if_pos (by simp), List.map_cons, List.filter_map, List.map_map]
  rfl

theorem firstOccurrences_sublist (entries : List α) :
    (firstOccurrences same entries).Sublist entries := by
  have h := (List.filter_sublist (p := fun (x, i) => !(entries.take i).any (same · x))
    (l := entries.zipIdx)).map Prod.fst
  rwa [List.zipIdx_map_fst] at h

theorem firstOccurrences_eq_self {entries : List α}
    (h : entries.Pairwise fun x y => same x y = false) :
    firstOccurrences same entries = entries := by
  induction entries with
  | nil => rfl
  | cons x rest ih =>
    rw [List.pairwise_cons] at h
    rw [firstOccurrences_cons, ih h.2, List.filter_eq_self.mpr]
    simpa using h.1

/-- Of two entries that are the same, only one is left. -/
theorem pairwise_firstOccurrences (entries : List α) :
    (firstOccurrences same entries).Pairwise fun x y => same x y = false := by
  induction entries with
  | nil => exact .nil
  | cons x rest ih =>
    rw [firstOccurrences_cons]
    refine .cons (fun y hy => ?_) (ih.filter _)
    simpa using (List.mem_filter.mp hy).2

/-- What is left is what a search for the same finds first. -/
theorem mem_firstOccurrences_iff {entries : List α} {x : α} (hx : same x x) :
    x ∈ firstOccurrences same entries ↔ entries.find? (same · x) = some x := by
  induction entries with
  | nil => simp [firstOccurrences_nil]
  | cons y rest ih =>
    rw [firstOccurrences_cons, List.mem_cons, List.mem_filter, List.find?_cons, ih]
    cases hy : same y x with
    | true => simp [eq_comm]
    | false =>
      have hne : x ≠ y := by
        rintro rfl
        exact absurd (hx.symm.trans hy) (by decide)
      simp [hne]

/-- Where no two entries are the same, a property that only such entries share holds of one of them
or of none. -/
theorem countP_eq_one_iff_of_pairwise {entries : List α} {p : α → Bool}
    (hpairs : entries.Pairwise fun x y => same x y = false)
    (hp : ∀ x y, p x → p y → same x y) : entries.countP p = 1 ↔ ∃ x ∈ entries, p x := by
  induction entries with
  | nil => simp
  | cons x rest ih =>
    rw [List.pairwise_cons] at hpairs
    by_cases hx : p x
    · have hrest : rest.countP p = 0 := by
        refine List.countP_eq_zero.mpr fun y hy hpy => ?_
        exact absurd ((hpairs.1 y hy).symm.trans (hp x y hx hpy)) (by decide)
      rw [List.countP_cons_of_pos hx, hrest]
      exact iff_of_true rfl ⟨x, List.mem_cons_self, hx⟩
    · rw [List.countP_cons_of_neg hx, ih hpairs.2]
      simp [hx]

end SqlCompose
