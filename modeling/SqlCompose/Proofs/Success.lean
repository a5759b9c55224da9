import Mathlib.Data.List.Forall2

/-!
# Successful computations

A statement is composed in steps that may each be refused. The lemmas here take a composition
that succeeded apart: every step before the last one succeeded too, and the results are the ones
that went into the next step. Of refusals they say only where a traversal meets its first one.
-/

namespace SqlCompose

variable {ε α β : Type}

theorem bind_eq_ok {x : Except ε α} {f : α → Except ε β} {b : β} :
    (x >>= f) = .ok b ↔ ∃ a, x = .ok a ∧ f a = .ok b := by
  cases x with
  | error e =>
    constructor
    · intro h
      cases h
    · rintro ⟨a, ha, _⟩
      cases ha
  | ok a =>
    constructor
    · intro h
      exact ⟨a, rfl, h⟩
    · rintro ⟨a', ha, h⟩
      cases ha
      exact h

theorem pure_eq_ok {a b : α} : (pure a : Except ε α) = .ok b ↔ a = b := by
  simp [pure, Except.pure]

theorem exists_of_isOk {x : Except ε α} (h : x.isOk) : ∃ a, x = .ok a := by
  cases x with
  | error e => cases h
  | ok a => exact ⟨a, rfl⟩

theorem map_eq_error {x : Except ε α} {f : α → β} {e : ε} : x.map f = .error e ↔ x = .error e := by
  cases x <;> simp [Except.map]

theorem map_eq_ok {x : Except ε α} {f : α → β} {b : β} :
    x.map f = .ok b ↔ ∃ a, x = .ok a ∧ f a = b := by
  cases x <;> simp [Except.map]

theorem ite_bind_eq_ok {p : Prop} [Decidable p] {x y : Except ε α} {f : α → Except ε β} {b : β} :
    (if p then x >>= f else y >>= f) = .ok b ↔
      ∃ a, (if p then x else y) = .ok a ∧ f a = .ok b := by
  split <;> exact bind_eq_ok

/-- A traversal that succeeded did so at every entry. -/
theorem mapM_eq_ok {f : α → Except ε β} {xs : List α} {ys : List β} :
    xs.mapM f = .ok ys ↔ List.Forall₂ (fun x y => f x = .ok y) xs ys := by
  induction xs generalizing ys with
  | nil => rw [List.mapM_nil, pure_eq_ok, List.forall₂_nil_left_iff, eq_comm]
  | cons x xs ih =>
    rw [List.mapM_cons, bind_eq_ok, List.forall₂_cons_left_iff]
    simp only [bind_eq_ok, pure_eq_ok, ih]
    constructor
    · rintro ⟨y, hy, rest, hrest, rfl⟩
      exact ⟨y, rest, hy, hrest, rfl⟩
    · rintro ⟨y, rest, hy, hrest, rfl⟩
      exact ⟨y, hy, rest, hrest, rfl⟩

/-- A traversal is refused at the first entry that is. -/
theorem mapM_eq_error {f : α → Except ε β} {xs : List α} {e : ε} :
    xs.mapM f = .error e ↔
      ∃ before x after, xs = before ++ x :: after ∧ (∀ y ∈ before, ∃ b, f y = .ok b) ∧
        f x = .error e := by
  induction xs with
  | nil =>
    rw [List.mapM_nil]
    constructor
    · intro h
      cases h
    · rintro ⟨before, x, after, hsplit, -⟩
      simp at hsplit
  | cons x xs ih =>
    rw [List.mapM_cons]
    cases hx : f x with
    | error e' =>
      constructor
      · intro h
        cases h
        exact ⟨[], x, xs, rfl, by simp, hx⟩
      · rintro ⟨before, y, after, hsplit, hbefore, hy⟩
        cases before with
        | nil =>
          obtain ⟨rfl, rfl⟩ := List.cons.inj hsplit
          rw [hx] at hy
          cases hy
          rfl
        | cons first before =>
          obtain ⟨rfl, -⟩ := List.cons.inj hsplit
          obtain ⟨b, hb⟩ := hbefore x List.mem_cons_self
          cases hx.symm.trans hb
    | ok b =>
      have hrest : (do let bs ← xs.mapM f; pure (b :: bs) : Except ε (List β)) = .error e ↔
          xs.mapM f = .error e := by
        cases xs.mapM f with
        | error e' => rfl
        | ok bs => exact ⟨nofun, nofun⟩
      refine hrest.trans (ih.trans ?_)
      constructor
      · rintro ⟨before, y, after, rfl, hbefore, hy⟩
        exact ⟨x :: before, y, after, rfl, List.forall_mem_cons.mpr ⟨⟨b, hx⟩, hbefore⟩, hy⟩
      · rintro ⟨before, y, after, hsplit, hbefore, hy⟩
        cases before with
        | nil =>
          obtain ⟨rfl, rfl⟩ := List.cons.inj hsplit
          cases hx.symm.trans hy
        | cons first before =>
          obtain ⟨rfl, rfl⟩ := List.cons.inj hsplit
          exact ⟨before, y, after, rfl, (List.forall_mem_cons.mp hbefore).2, hy⟩

theorem exists_of_mapM_eq_ok {f : α → Except ε β} {xs : List α} {ys : List β}
    (h : xs.mapM f = .ok ys) {y : β} (hy : y ∈ ys) : ∃ x ∈ xs, f x = .ok y := by
  have hall := mapM_eq_ok.mp h
  clear h
  induction hall with
  | nil => cases hy
  | cons hf _ ih =>
    rcases List.mem_cons.mp hy with rfl | hrest
    · exact ⟨_, List.mem_cons_self, hf⟩
    · obtain ⟨x, hx, he⟩ := ih hrest
      exact ⟨x, List.mem_cons_of_mem _ hx, he⟩

/-- A traversal that wraps each of its results. -/
theorem mapM_map_eq_ok {γ : Type} {f : α → Except ε β} {g : β → γ} {xs : List α} {zs : List γ}
    (h : (xs.mapM fun x => do return g (← f x)) = .ok zs) :
    ∃ ys, zs = ys.map g ∧ xs.mapM f = .ok ys := by
  have hall := mapM_eq_ok.mp h
  simp only [bind_eq_ok, pure_eq_ok] at hall
  simp only [mapM_eq_ok]
  clear h
  induction hall with
  | nil => exact ⟨[], rfl, .nil⟩
  | cons hhead _ ih =>
    obtain ⟨y, hy, rfl⟩ := hhead
    obtain ⟨ys, rfl, hys⟩ := ih
    exact ⟨y :: ys, rfl, .cons hy hys⟩

/-- A function that leads from each result of a traversal back to its entry. -/
theorem map_eq_of_mapM_eq_ok {f : α → Except ε β} {g : β → α} {xs : List α} {ys : List β}
    (h : xs.mapM f = .ok ys) (hg : ∀ x y, f x = .ok y → g y = x) : ys.map g = xs := by
  have hall := (mapM_eq_ok.mp h).imp fun x y hy => (hg x y hy).symm
  rw [← List.forall₂_map_right_iff, List.forall₂_eq_eq_eq] at hall
  exact hall.symm

/-- A split of the results of a traversal splits what was traversed. -/
theorem forall₂_append_cons_right {R : α → β → Prop} {xs : List α} {before after : List β} {y : β}
    (h : List.Forall₂ R xs (before ++ y :: after)) :
    ∃ xbefore x xafter, xs = xbefore ++ x :: xafter ∧ List.Forall₂ R xbefore before ∧ R x y := by
  induction before generalizing xs with
  | nil =>
    obtain ⟨x, rest, hx, _, rfl⟩ := List.forall₂_cons_right_iff.mp h
    exact ⟨[], x, rest, rfl, .nil, hx⟩
  | cons head before ih =>
    obtain ⟨first, rest, hfirst, hrest, rfl⟩ := List.forall₂_cons_right_iff.mp h
    obtain ⟨xbefore, x, xafter, rfl, hbefore, hx⟩ := ih hrest
    exact ⟨first :: xbefore, x, xafter, rfl, .cons hfirst hbefore, hx⟩

theorem exists_mem_right_of_forall₂ {R : α → β → Prop} {xs : List α} {ys : List β}
    (h : List.Forall₂ R xs ys) {x : α} (hx : x ∈ xs) : ∃ y ∈ ys, R x y := by
  induction h with
  | nil => cases hx
  | cons hr _ ih =>
    rcases List.mem_cons.mp hx with rfl | hrest
    · exact ⟨_, List.mem_cons_self, hr⟩
    · obtain ⟨y, hy, hry⟩ := ih hrest
      exact ⟨y, List.mem_cons_of_mem _ hy, hry⟩

/-- A traversal that may leave entries out keeps those for which a test says so, in their order. -/
theorem forall₂_filter_filterMap {R : α → Option β → Prop} {p : α → Bool}
    {xs : List α} {ys : List (Option β)} (h : List.Forall₂ R xs ys)
    (hp : ∀ x ∈ xs, ∀ y, R x y → y.isSome = p x) :
    List.Forall₂ (fun x y => R x (some y)) (xs.filter p) (ys.filterMap id) := by
  induction h with
  | nil => exact .nil
  | @cons x y xs ys hr _ ih =>
    have hrest := ih fun x hx => hp x (List.mem_cons_of_mem _ hx)
    have hx := hp x List.mem_cons_self y hr
    cases y with
    | none =>
      rw [List.filter_cons_of_neg (by simp [← hx]), List.filterMap_cons_none rfl]
      exact hrest
    | some y =>
      rw [List.filter_cons_of_pos hx.symm]
      exact .cons hr hrest

theorem exists_mapM_eq_error_iff {f : α → Except ε β} {xs : List α} :
    (∃ e, xs.mapM f = .error e) ↔ ∃ x ∈ xs, ∃ e, f x = .error e := by
  constructor
  · rintro ⟨e, h⟩
    obtain ⟨before, x, after, rfl, -, hx⟩ := mapM_eq_error.mp h
    exact ⟨x, by simp, e, hx⟩
  · rintro ⟨x, hmem, e, hx⟩
    cases h : xs.mapM f with
    | error e' => exact ⟨e', rfl⟩
    | ok ys =>
      obtain ⟨y, -, hy⟩ := exists_mem_right_of_forall₂ (mapM_eq_ok.mp h) hmem
      cases hx.symm.trans hy

/-- What every step of a fold keeps holds at its end. -/
theorem foldlM_eq_ok_of_step {f : β → α → Except ε β} {P : β → Prop} {xs : List α} {b r : β}
    (hstep : ∀ b x b', x ∈ xs → P b → f b x = .ok b' → P b') (hb : P b)
    (h : xs.foldlM f b = .ok r) : P r := by
  induction xs generalizing b with
  | nil =>
    rw [List.foldlM_nil, pure_eq_ok] at h
    exact h ▸ hb
  | cons x xs ih =>
    rw [List.foldlM_cons, bind_eq_ok] at h
    obtain ⟨b', hx, hrest⟩ := h
    refine ih (fun b x' b' hmem => hstep b x' b' (List.mem_cons_of_mem _ hmem)) ?_ hrest
    exact hstep b x b' List.mem_cons_self hb hx

/-- What each step of a fold adds is there at its end, next to what was there before. -/
theorem foldlM_eq_ok_of_adds {f : β → α → Except ε β} {P : β → Prop} {A : α → Prop} {xs : List α}
    {b r : β} (hstep : ∀ b x b', f b x = .ok b' → (P b' ↔ P b ∨ A x))
    (h : xs.foldlM f b = .ok r) : P r ↔ P b ∨ ∃ x ∈ xs, A x := by
  induction xs generalizing b with
  | nil =>
    rw [List.foldlM_nil, pure_eq_ok] at h
    simp [h]
  | cons x xs ih =>
    rw [List.foldlM_cons, bind_eq_ok] at h
    obtain ⟨b', hx, hrest⟩ := h
    rw [ih hrest, hstep b x b' hx, or_assoc, List.exists_mem_cons_iff]

/-- A fold succeeds if each of its steps does. -/
theorem exists_foldlM_eq_ok {f : β → α → Except ε β} {xs : List α}
    (hstep : ∀ b, ∀ x ∈ xs, ∃ b', f b x = .ok b') (b : β) : ∃ r, xs.foldlM f b = .ok r := by
  induction xs generalizing b with
  | nil => exact ⟨b, rfl⟩
  | cons x xs ih =>
    obtain ⟨b', hb'⟩ := hstep b x List.mem_cons_self
    obtain ⟨r, hr⟩ := ih (fun b y hy => hstep b y (List.mem_cons_of_mem _ hy)) b'
    refine ⟨r, ?_⟩
    rw [List.foldlM_cons, hb']
    exact hr

end SqlCompose
