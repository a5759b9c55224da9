import Mathlib.Data.List.Forall2
import SqlCompose.Composer

/-!
# Permissions

A setting permits more than another when its dialect supports more, or when it leaves empty lists
out instead of refusing them. Two computations are compared step by step: the permissive one gives
what the strict one gives, unless the strict one was refused for something that is permitted now.
That relation goes through binds, traversals and folds, so a statement needs it only where it asks
for a permission. No text depends on what the dialect supports.
-/

namespace SqlCompose

/-- The dialect with other capabilities. -/
def Dialect.withCapability (d : Dialect) (cap : Capability) : Dialect :=
  { d with capability := cap }

/-- The composer with other capabilities of its dialect and another policy for empty lists. -/
def Composer.granting (c : Composer) (cap : Capability) (policy : EmptyListPolicy) : Composer :=
  ⟨c.schema, c.dialect.withCapability cap, { c.config with emptyList := policy }⟩

/-- Capabilities and a policy that permit at least what a composer permits. How a column is
restated, a table emptied and an index dropped is a matter of spelling and stays. -/
structure Composer.Grants (c : Composer) (cap : Capability) (policy : EmptyListPolicy) : Prop where
  returning : c.dialect.capability.returning → cap.returning
  distinctOn : c.dialect.capability.distinctOn → cap.distinctOn
  fullJoin : c.dialect.capability.fullJoin → cap.fullJoin
  concurrentIndex : c.dialect.capability.concurrentIndex → cap.concurrentIndex
  createIndexIfNotExists :
    c.dialect.capability.createIndexIfNotExists → cap.createIndexIfNotExists
  alterColumn : c.dialect.capability.alterColumn → cap.alterColumn
  modifyColumn : cap.modifyColumn = c.dialect.capability.modifyColumn
  truncate : cap.truncate = c.dialect.capability.truncate
  dropIndexOnTable : cap.dropIndexOnTable = c.dialect.capability.dropIndexOnTable
  emptyList : c.config.emptyList = .elide → policy = .elide

/-- The refusals that are lifted: each asks for a capability, or for a policy, that is missing in
the composer and granted now. -/
inductive Composer.Lifts (c : Composer) (cap : Capability) (policy : EmptyListPolicy) : Error → Prop
  | returning : ¬ c.dialect.capability.returning → cap.returning →
      Lifts c cap policy (.unsupportedFeature (.returning c.dialect.name))
  | distinctOn : ¬ c.dialect.capability.distinctOn → cap.distinctOn →
      Lifts c cap policy (.unsupportedFeature (.distinctOn c.dialect.name))
  | fullJoin : ¬ c.dialect.capability.fullJoin → cap.fullJoin →
      Lifts c cap policy (.unsupportedFeature (.fullJoin c.dialect.name))
  | createIndexConcurrently : ¬ c.dialect.capability.concurrentIndex → cap.concurrentIndex →
      Lifts c cap policy (.unsupportedFeature (.createIndexConcurrently c.dialect.name))
  | dropIndexConcurrently : ¬ c.dialect.capability.concurrentIndex → cap.concurrentIndex →
      Lifts c cap policy (.unsupportedFeature (.dropIndexConcurrently c.dialect.name))
  | createIndexIfNotExists : ¬ c.dialect.capability.createIndexIfNotExists →
      cap.createIndexIfNotExists →
      Lifts c cap policy (.unsupportedFeature (.createIndexIfNotExists c.dialect.name))
  | alterColumn (changed : ColumnAttribute) (table column : String) :
      ¬ c.dialect.capability.alterColumn → cap.alterColumn →
      Lifts c cap policy (.unsupportedFeature (.alterColumn c.dialect.name changed table column))
  | emptyList (op : Operator) (field : String) : c.config.emptyList = .refuse → policy = .elide →
      Lifts c cap policy (.invalidOperator op.name field .emptyList)

/-- What is lifted is a missing feature where the capabilities differ, and a misused operator
where the policies do. -/
theorem Composer.Lifts.kind {c : Composer} {cap : Capability} {policy : EmptyListPolicy} {e : Error}
    (h : c.Lifts cap policy e) :
    (e.kind = .unsupportedFeature ∧ cap ≠ c.dialect.capability) ∨
      (e.kind = .invalidOperator ∧ policy ≠ c.config.emptyList) := by
  have differs : ∀ flag : Capability → Bool, ¬ flag c.dialect.capability → flag cap →
      cap ≠ c.dialect.capability := by
    intro flag hstrict hgranted heq
    exact hstrict (heq ▸ hgranted)
  cases h with
  | returning hs hg => exact .inl ⟨rfl, differs (·.returning) hs hg⟩
  | distinctOn hs hg => exact .inl ⟨rfl, differs (·.distinctOn) hs hg⟩
  | fullJoin hs hg => exact .inl ⟨rfl, differs (·.fullJoin) hs hg⟩
  | createIndexConcurrently hs hg => exact .inl ⟨rfl, differs (·.concurrentIndex) hs hg⟩
  | dropIndexConcurrently hs hg => exact .inl ⟨rfl, differs (·.concurrentIndex) hs hg⟩
  | createIndexIfNotExists hs hg => exact .inl ⟨rfl, differs (·.createIndexIfNotExists) hs hg⟩
  | alterColumn _ _ _ hs hg => exact .inl ⟨rfl, differs (·.alterColumn) hs hg⟩
  | emptyList _ _ hs hg => exact .inr ⟨rfl, by rw [hs, hg]; decide⟩

/-- The permissive result is the strict one, or the strict one is a refusal that is lifted. -/
def Relaxes {α : Type} (lifted : Error → Prop) (strict permissive : Except Error α) : Prop :=
  permissive = strict ∨ ∃ e, lifted e ∧ strict = .error e

namespace Relaxes

variable {α β : Type} {lifted : Error → Prop} {x y : Except Error α}

theorem refl (x : Except Error α) : Relaxes lifted x x := .inl rfl

theorem of_eq (h : y = x) : Relaxes lifted x y := .inl h

theorem bind {f g : α → Except Error β} (h : Relaxes lifted x y)
    (hrest : ∀ a, Relaxes lifted (f a) (g a)) : Relaxes lifted (x >>= f) (y >>= g) := by
  rcases h with rfl | ⟨e, he, rfl⟩
  · cases y with
    | error e => exact .inl rfl
    | ok a => exact hrest a
  · exact .inr ⟨e, he, rfl⟩

/-- Only the first of two steps asks for a permission. -/
theorem bind_left (h : Relaxes lifted x y) (f : α → Except Error β) :
    Relaxes lifted (x >>= f) (y >>= f) := h.bind fun a => refl (f a)

/-- Only the second of two steps asks for a permission. -/
theorem bind_right (x : Except Error α) {f g : α → Except Error β}
    (hrest : ∀ a, Relaxes lifted (f a) (g a)) : Relaxes lifted (x >>= f) (x >>= g) :=
  (refl x).bind hrest

theorem mapM {f g : α → Except Error β} (h : ∀ a, Relaxes lifted (f a) (g a)) (xs : List α) :
    Relaxes lifted (xs.mapM f) (xs.mapM g) := by
  induction xs with
  | nil => exact refl _
  | cons a rest ih =>
    rw [List.mapM_cons, List.mapM_cons]
    exact (h a).bind fun b => ih.bind_left _

theorem foldlM {f g : β → α → Except Error β} (h : ∀ b a, Relaxes lifted (f b a) (g b a))
    (xs : List α) (b : β) : Relaxes lifted (xs.foldlM f b) (xs.foldlM g b) := by
  induction xs generalizing b with
  | nil => exact refl _
  | cons a rest ih =>
    rw [List.foldlM_cons, List.foldlM_cons]
    exact (h b a).bind ih

/-- Two ways to make a step, before what follows either of them. -/
theorem ite_bind {p : Prop} [Decidable p] {x' y' : Except Error α} {f g : α → Except Error β}
    (h : Relaxes lifted x y) (h' : Relaxes lifted x' y')
    (hrest : ∀ a, Relaxes lifted (f a) (g a)) :
    Relaxes lifted (if p then x >>= f else x' >>= f) (if p then y >>= g else y' >>= g) := by
  split
  · exact h.bind hrest
  · exact h'.bind hrest

/-- A refusal whose condition a permission may take away. -/
theorem guarded {p q : Prop} [Decidable p] [Decidable q] {e : Error} (hpq : q → p)
    (he : p → ¬ q → lifted e) (h : Relaxes lifted x y) :
    Relaxes lifted (if p then throw e else x) (if q then throw e else y) := by
  by_cases hq : q
  · rw [if_pos hq, if_pos (hpq hq)]
    exact refl _
  · rw [if_neg hq]
    by_cases hp : p
    · rw [if_pos hp]
      exact .inr ⟨e, he hp hq, rfl⟩
    · rw [if_neg hp]
      exact h

/-- A step that needs a permission. -/
theorem provided {p q : Prop} [Decidable p] [Decidable q] {e : Error} (hpq : p → q)
    (he : ¬ p → q → lifted e) (h : Relaxes lifted x y) :
    Relaxes lifted (if p then x else throw e) (if q then y else throw e) := by
  rw [← ite_not, ← ite_not (p := q)]
  exact guarded (fun hq hp => hq (hpq hp)) (fun hp hq => he hp (not_not.mp hq)) h

theorem ok (h : Relaxes lifted x y) {a : α} (hx : x = .ok a) : y = .ok a := by
  rcases h with rfl | ⟨e, _, rfl⟩
  · exact hx
  · cases hx

theorem error (h : Relaxes lifted x y) {a : α} {e : Error} (hy : y = .ok a) (hx : x = .error e) :
    lifted e := by
  rcases h with rfl | ⟨e', he, rfl⟩
  · cases hy.symm.trans hx
  · cases hx
    exact he

end Relaxes

end SqlCompose
