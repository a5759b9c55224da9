import Mathlib.Data.List.Nodup
import SqlCompose.Proofs.Reading.Grammar
import SqlCompose.Proofs.Truth

/-!
# Two ways to group a chain

A chain of operands is read in two ways. SQL reads AND as tighter than OR. The other reading joins
each operand to all that stands before it. They agree whatever the atoms mean if on every level each
AND stands before each OR. If no atom occurs twice, they agree on no other chain: the atoms can be
chosen so that one AND behind an OR, however deep, decides between the two.
-/

namespace SqlCompose

open Truth (ofBool)

namespace Connector

/-- Two truth values with a connector between them. -/
def join : Connector → Truth → Truth → Truth
  | .and => Truth.and
  | .or => Truth.or

/-- The truth value that a connector joins without effect. -/
def neutral : Connector → Bool
  | .and => true
  | .or => false

theorem join_no (c : Connector) : c.join .no .no = .no := by cases c <;> rfl

/-- Whether each AND stands before each OR. -/
def AndsFirst : List Connector → Prop
  | [] => True
  | .and :: rest => AndsFirst rest
  | .or :: rest => Connector.and ∉ rest

namespace AndsFirst

variable {cs : List Connector}

theorem of_not_mem (h : Connector.and ∉ cs) : AndsFirst cs := by
  match cs with
  | [] => trivial
  | .and :: rest => exact absurd List.mem_cons_self h
  | .or :: rest => exact fun hmem => h (List.mem_cons_of_mem _ hmem)

theorem tail {c : Connector} (h : AndsFirst (c :: cs)) : AndsFirst cs := by
  cases c with
  | and => exact h
  | or => exact of_not_mem h

end AndsFirst

end Connector

/-- The truth of operands each of which is joined to all that stands before it. No operands
restrict nothing, and the connector of the first one is not read. -/
def truthFromLeft : List (Connector × Truth) → Truth
  | [] => .yes
  | (_, first) :: rest => rest.foldl (fun sofar o => o.1.join sofar o.2) first

namespace Truth

theorem and_assoc (a b c : Truth) : (a.and b).and c = a.and (b.and c) := by
  cases a <;> cases b <;> cases c <;> rfl

@[simp] theorem and_yes (a : Truth) : a.and yes = a := by cases a <;> rfl

@[simp] theorem yes_and (a : Truth) : yes.and a = a := by cases a <;> rfl

theorem and_self (a : Truth) : a.and a = a := by cases a <;> rfl

@[simp] theorem yes_or (a : Truth) : yes.or a = yes := by cases a <;> rfl

end Truth

section Flat

variable {k c : Connector} {a b : Truth} {rest : List (Connector × Truth)}

theorem chainTruth_and_cons :
    chainTruth ((k, a) :: (.and, b) :: rest) = chainTruth ((k, a.and b) :: rest) := by
  have hany : ∀ term : List Truth, ∀ others : List (List Truth),
      Truth.any (((a :: b :: term) :: others).map Truth.all) =
        Truth.any (((a.and b :: term) :: others).map Truth.all) := by
    intro term others
    show (a.and (b.and (Truth.all term))).or _ = ((a.and b).and (Truth.all term)).or _
    rw [Truth.and_assoc]
  match rest with
  | [] => exact hany [] []
  | (.or, d) :: others => exact hany [] (orTerms ((.or, d) :: others))
  | (.and, d) :: others =>
    show Truth.any ((((orTerms ((.and, d) :: others)).modifyHead (b :: ·)).modifyHead
      (a :: ·)).map Truth.all) =
      Truth.any (((orTerms ((.and, d) :: others)).modifyHead (a.and b :: ·)).map Truth.all)
    cases hterms : orTerms ((Connector.and, d) :: others) with
    | nil => exact absurd hterms orTerms_ne_nil
    | cons term terms => exact hany term terms

theorem chainTruth_or_cons :
    chainTruth ((k, a) :: (.or, b) :: rest) = a.or (chainTruth ((.or, b) :: rest)) := by
  show (a.and .yes).or _ = a.or _
  rw [Truth.and_yes]
  rfl

theorem chainTruth_one : chainTruth [(k, a)] = a := by
  show (a.and .yes).or .no = a
  rw [Truth.or_no, Truth.and_yes]

/-- The connector of the first operand is not read. -/
theorem chainTruth_unread (other : Connector) :
    chainTruth ((k, a) :: rest) = chainTruth ((other, a) :: rest) := by
  obtain ⟨term, others, hterms⟩ := orTerms_cons a rest
  show Truth.any ((orTerms _).map _) = Truth.any ((orTerms _).map _)
  rw [hterms k, hterms other]

theorem truthFromLeft_cons :
    truthFromLeft ((k, a) :: (c, b) :: rest) = truthFromLeft ((k, c.join a b) :: rest) := rfl

/-- Without an AND behind it an OR may be evaluated first. -/
theorem chainTruth_or_join (h : Connector.and ∉ rest.map Prod.fst) :
    chainTruth ((k, a) :: (.or, b) :: rest) = chainTruth ((k, a.or b) :: rest) := by
  rw [chainTruth_or_cons]
  match rest with
  | [] => rw [chainTruth_one, chainTruth_one]
  | (.or, d) :: others => rw [chainTruth_or_cons, chainTruth_or_cons, Truth.or_assoc]
  | (.and, d) :: others => exact absurd List.mem_cons_self h

/-- Where each AND stands before each OR, precedence and the order of the operands agree. -/
theorem chainTruth_eq_truthFromLeft (h : Connector.AndsFirst (rest.map Prod.fst)) :
    chainTruth ((k, a) :: rest) = truthFromLeft ((k, a) :: rest) := by
  induction rest generalizing a with
  | nil => exact chainTruth_one
  | cons o rest ih =>
    obtain ⟨_ | _, b⟩ := o
    · rw [chainTruth_and_cons, truthFromLeft_cons]
      exact ih h
    · rw [chainTruth_or_join h, truthFromLeft_cons]
      exact ih (.of_not_mem h)

/-- What both ways to group operands have in common. -/
structure Groups (eval : List (Connector × Truth) → Truth) : Prop where
  one : ∀ k a, eval [(k, a)] = a
  unread : ∀ k other a rest, eval ((k, a) :: rest) = eval ((other, a) :: rest)
  link_and : ∀ k a b rest, eval ((k, a) :: (.and, b) :: rest) = eval ((k, a.and b) :: rest)
  no_or : ∀ k b rest, eval ((k, .no) :: (.or, b) :: rest) = eval ((k, b) :: rest)
  or_no : ∀ k a rest, eval ((.or, .no) :: rest) = .no →
    eval ((k, a) :: rest) = a → eval ((k, a) :: (.or, .no) :: rest) = a

theorem groups_chainTruth : Groups chainTruth where
  one _ _ := chainTruth_one
  unread _ other _ _ := chainTruth_unread other
  link_and _ _ _ _ := chainTruth_and_cons
  no_or k b rest := by
    rw [chainTruth_or_cons, Truth.no_or]
    exact chainTruth_unread k
  or_no k a rest hno _ := by
    rw [chainTruth_or_cons, hno, Truth.or_no]

theorem groups_truthFromLeft : Groups truthFromLeft where
  one _ _ := rfl
  unread _ _ _ _ := rfl
  link_and _ _ _ _ := rfl
  no_or k b rest := by
    rw [truthFromLeft_cons, Connector.join, Truth.no_or]
  or_no k a rest _ hrest := by
    rw [truthFromLeft_cons, Connector.join, Truth.or_no]
    exact hrest

/-- Operands that are true or false. -/
def truths (choice : List (Connector × Bool)) : List (Connector × Truth) :=
  choice.map fun o => (o.1, ofBool o.2)

/-- Operands that are joined to the ones before them without effect. -/
def neutrals (cs : List Connector) : List (Connector × Bool) := cs.map fun c => (c, c.neutral)

/-- Operands before one with the connector `k` that leave the decision to it: true in its own term,
false before. -/
def leading (k : Connector) : List Connector → List (Connector × Bool)
  | [] => []
  | c :: rest => (c, (rest ++ [k]).all (· == .and)) :: leading k rest

/-- Operands behind a true one with which the two ways to group them differ: true up to the first
OR, false from there on. -/
def lures : List Connector → List (Connector × Bool)
  | [] => []
  | .and :: rest => (.and, true) :: lures rest
  | .or :: rest => (.or, false) :: rest.map (·, false)

namespace Groups

variable {eval : List (Connector × Truth) → Truth}

theorem neutrals (h : Groups eval) (k : Connector) (a : Truth) (cs : List Connector) :
    eval ((k, a) :: truths (neutrals cs)) = a := by
  induction cs generalizing k a with
  | nil => exact h.one k a
  | cons c cs ih =>
    cases c with
    | and =>
      show eval ((k, a) :: (.and, .yes) :: truths (SqlCompose.neutrals cs)) = a
      rw [h.link_and, Truth.and_yes]
      exact ih k a
    | or => exact h.or_no k a _ (ih .or .no) (ih k a)

theorem leading (h : Groups eval) (cs : List Connector) :
    eval (truths (leading k cs) ++ (k, a) :: rest) = eval ((k, a) :: rest) := by
  induction cs with
  | nil => rfl
  | cons c cs ih =>
    rw [← ih]
    -- An operand is as true as the next one before AND, and false before OR.
    have hskip : ∀ (next : Connector) (b : Truth) (others : List (Connector × Truth)) (first : Bool),
        (next = .and → (ofBool first).and b = b) → (next = .or → first = false) →
        eval ((c, ofBool first) :: (next, b) :: others) = eval ((next, b) :: others) := by
      intro next b others first hand hor
      cases next with
      | and => rw [h.link_and, hand rfl, h.unread]
      | or =>
        rw [hor rfl]
        exact (h.no_or c b others).trans (h.unread c .or b others)
    match cs with
    | [] =>
      refine hskip k a rest _ ?_ ?_
      · rintro rfl
        exact Truth.yes_and a
      · rintro rfl
        rfl
    | next :: cs =>
      refine hskip next _ _ _ ?_ ?_
      · rintro rfl
        exact Truth.and_self _
      · rintro rfl
        rfl

end Groups

theorem chainTruth_lures (k : Connector) (cs : List Connector) :
    chainTruth ((k, .yes) :: truths (lures cs)) = .yes := by
  induction cs with
  | nil => exact chainTruth_one
  | cons c cs ih =>
    cases c with
    | and => exact chainTruth_and_cons.trans ih
    | or => exact chainTruth_or_cons.trans (Truth.yes_or _)

theorem truthFromLeft_no (k : Connector) (cs : List Connector) :
    truthFromLeft ((k, .no) :: truths (cs.map (·, false))) = .no := by
  induction cs with
  | nil => rfl
  | cons c cs ih =>
    show truthFromLeft ((k, c.join .no .no) :: _) = .no
    rw [c.join_no]
    exact ih

/-- From the left, one AND with a false operand makes all before it false. -/
theorem truthFromLeft_of_mem {cs : List Connector} (h : Connector.and ∈ cs) :
    truthFromLeft ((k, a) :: truths (cs.map (·, false))) = .no := by
  induction cs generalizing a with
  | nil => cases h
  | cons c cs ih =>
    show truthFromLeft ((k, c.join a .no) :: _) = .no
    cases c with
    | and =>
      have hno : Connector.and.join a .no = .no := Truth.and_eq_no_iff.mpr (.inr rfl)
      rw [hno]
      exact truthFromLeft_no k cs
    | or => exact ih ((List.mem_cons.mp h).resolve_left nofun)

theorem truthFromLeft_lures (k : Connector) {cs : List Connector} (h : ¬ Connector.AndsFirst cs) :
    truthFromLeft ((k, .yes) :: truths (lures cs)) = .no := by
  induction cs with
  | nil => exact absurd trivial h
  | cons c cs ih =>
    cases c with
    | and => exact ih h
    | or =>
      show truthFromLeft ((k, .yes) :: truths (cs.map (·, false))) = .no
      exact truthFromLeft_of_mem (Decidable.not_not.mp h)

end Flat

namespace Reading

mutual

/-- The texts of the conditions of a chain. -/
def Chain.atoms : Chain → List String
  | .one operand => operand.atoms
  | .link first _ rest => first.atoms ++ rest.atoms

/-- The texts of the conditions of an operand. -/
def Factor.atoms : Factor → List String
  | .atom text => [text]
  | .group _ body => body.atoms

end

mutual

/-- The truth values of the operands of a chain under a valuation of the atoms, if levels are
evaluated by `eval`. -/
def Chain.values (eval : List (Connector × Truth) → Truth) (v : String → Truth) (k : Connector) :
    Chain → List (Connector × Truth)
  | .one operand => [(k, operand.value eval v)]
  | .link first c rest => (k, first.value eval v) :: rest.values eval v c

/-- The truth value of an operand. -/
def Factor.value (eval : List (Connector × Truth) → Truth) (v : String → Truth) : Factor → Truth
  | .atom text => v text
  | .group negated body =>
      if negated then (eval (body.values eval v .and)).not else eval (body.values eval v .and)

end

/-- The truth value of a chain under a valuation of the atoms, if levels are evaluated by `eval`. -/
def Chain.value (eval : List (Connector × Truth) → Truth) (v : String → Truth) (chain : Chain) :
    Truth :=
  eval (chain.values eval v .and)

/-- The connectors between the operands of a chain. -/
def Chain.connectors : Chain → List Connector
  | .one _ => []
  | .link _ c rest => c :: rest.connectors

mutual

/-- Whether on every level of a chain each AND stands before each OR. -/
def Chain.AndsFirst : Chain → Prop
  | .one operand => operand.AndsFirst
  | .link first c rest =>
      first.AndsFirst ∧ rest.AndsFirst ∧ Connector.AndsFirst (c :: rest.connectors)

/-- Whether on every level inside an operand each AND stands before each OR. -/
def Factor.AndsFirst : Factor → Prop
  | .atom _ => True
  | .group _ body => body.AndsFirst

end

section Of

variable (first : Factor) (others : List (Connector × Factor))

theorem Chain.atoms_of :
    (Chain.of first others).atoms = ((.and, first) :: others).flatMap (·.2.atoms) := by
  induction others generalizing first with
  | nil => rw [of, atoms, List.flatMap_cons, List.flatMap_nil, List.append_nil]
  | cons o others ih => rw [of, atoms, ih, List.flatMap_cons, List.flatMap_cons, List.flatMap_cons]

theorem Chain.values_of (eval : List (Connector × Truth) → Truth) (v : String → Truth)
    (k : Connector) : (Chain.of first others).values eval v k =
      ((k, first) :: others).map fun o => (o.1, o.2.value eval v) := by
  induction others generalizing first k with
  | nil => rw [of, values, List.map_cons, List.map_nil]
  | cons o others ih =>
    rw [of, values, ih]
    rfl

theorem Chain.connectors_of : (Chain.of first others).connectors = others.map Prod.fst := by
  induction others generalizing first with
  | nil => rfl
  | cons o others ih => rw [of, connectors, ih, List.map_cons]

theorem Chain.andsFirst_of : (Chain.of first others).AndsFirst ↔
    (∀ o ∈ (Connector.and, first) :: others, o.2.AndsFirst) ∧
      Connector.AndsFirst (others.map Prod.fst) := by
  induction others generalizing first with
  | nil => simp [of, Chain.AndsFirst, Connector.AndsFirst]
  | cons o others ih =>
    rw [of, Chain.AndsFirst, ih, connectors_of, List.map_cons]
    simp only [List.forall_mem_cons]
    constructor
    · rintro ⟨hfirst, ⟨hrest, -⟩, hcs⟩
      exact ⟨⟨hfirst, hrest⟩, hcs⟩
    · rintro ⟨⟨hfirst, hrest⟩, hcs⟩
      exact ⟨hfirst, ⟨hrest, hcs.tail⟩, hcs⟩

end Of

mutual

/-- Induction over the operands of all levels, those of one level together. -/
theorem Factor.levelInduction {P : Factor → Prop} (atom : ∀ text, P (.atom text))
    (group : ∀ negated first others, (∀ o ∈ (Connector.and, first) :: others, P o.2) →
      P (.group negated (.of first others))) : ∀ operand, P operand
  | .atom text => atom text
  | .group negated body => by
      obtain ⟨first, others, rfl, hall⟩ := Chain.levelInduction atom group body
      exact group negated first others hall

theorem Chain.levelInduction {P : Factor → Prop} (atom : ∀ text, P (.atom text))
    (group : ∀ negated first others, (∀ o ∈ (Connector.and, first) :: others, P o.2) →
      P (.group negated (.of first others))) : ∀ chain : Chain, ∃ first others,
      chain = .of first others ∧ ∀ o ∈ (Connector.and, first) :: others, P o.2
  | .one operand => by
      refine ⟨operand, [], rfl, List.forall_mem_cons.mpr ⟨?_, nofun⟩⟩
      exact Factor.levelInduction atom group operand
  | .link first c rest => by
      obtain ⟨next, others, rfl, hall⟩ := Chain.levelInduction atom group rest
      refine ⟨first, (c, next) :: others, rfl, List.forall_mem_cons.mpr ⟨?_, ?_⟩⟩
      · exact Factor.levelInduction atom group first
      · exact List.forall_mem_cons.mpr (List.forall_mem_cons.mp hall)

end

theorem Factor.value_group (eval : List (Connector × Truth) → Truth) (v : String → Truth)
    (negated : Bool) (body : Chain) : (Factor.group negated body).value eval v =
      if negated then (body.value eval v).not else body.value eval v := by
  rw [value, Chain.value]

/-- Where on every level each AND stands before each OR, both readings are the same. -/
theorem Factor.value_eq {v : String → Truth} {operand : Factor} (h : operand.AndsFirst) :
    operand.value chainTruth v = operand.value truthFromLeft v := by
  induction operand using Factor.levelInduction with
  | atom text => rw [value, value]
  | group negated first others ih =>
    obtain ⟨hall, hcs⟩ := Chain.andsFirst_of first others |>.mp h
    have hvalues : ((Connector.and, first) :: others).map
        (fun o => (o.1, o.2.value chainTruth v)) =
        ((Connector.and, first) :: others).map fun o => (o.1, o.2.value truthFromLeft v) := by
      refine List.map_congr_left fun o ho => ?_
      rw [ih o ho (hall o ho)]
    rw [value_group, value_group, Chain.value, Chain.value, Chain.values_of, Chain.values_of,
      ← hvalues, List.map_cons, chainTruth_eq_truthFromLeft]
    rw [List.map_map]
    exact hcs

/-- The truth values of an operand by precedence and from the left. -/
def Factor.readings (v : String → Truth) (operand : Factor) : Truth × Truth :=
  (operand.value chainTruth v, operand.value truthFromLeft v)

/-- The truth values of a chain by precedence and from the left. -/
def Chain.readings (v : String → Truth) (chain : Chain) : Truth × Truth :=
  (chain.value chainTruth v, chain.value truthFromLeft v)

/-- The truth values of operands by precedence and from the left, from those of each. -/
def levelReadings (level : List (Connector × Truth × Truth)) : Truth × Truth :=
  (chainTruth (level.map fun o => (o.1, o.2.1)), truthFromLeft (level.map fun o => (o.1, o.2.2)))

/-- Operands that are read alike both ways. -/
def alike (level : List (Connector × Truth)) : List (Connector × Truth × Truth) :=
  level.map fun o => (o.1, o.2, o.2)

theorem Factor.readings_group (v : String → Truth) (negated : Bool) (body : Chain) :
    (Factor.group negated body).readings v =
      if negated then ((body.readings v).1.not, (body.readings v).2.not)
      else body.readings v := by
  rw [readings, value_group, value_group]
  cases negated <;> rfl

theorem Chain.readings_of (v : String → Truth) (first : Factor)
    (others : List (Connector × Factor)) :
    (Chain.of first others).readings v =
      levelReadings (((.and, first) :: others).map fun o => (o.1, o.2.readings v)) := by
  rw [readings, value, value, values_of, values_of, levelReadings, List.map_map, List.map_map]
  rfl

theorem Factor.value_congr {eval : List (Connector × Truth) → Truth} {v w : String → Truth}
    {operand : Factor} (h : ∀ text ∈ operand.atoms, v text = w text) :
    operand.value eval v = operand.value eval w := by
  induction operand using Factor.levelInduction with
  | atom text =>
    rw [value, value]
    exact h text (by rw [atoms]; exact List.mem_singleton_self text)
  | group negated first others ih =>
    rw [atoms, Chain.atoms_of] at h
    have hvalues : ((Connector.and, first) :: others).map (fun o => (o.1, o.2.value eval v)) =
        ((Connector.and, first) :: others).map fun o => (o.1, o.2.value eval w) := by
      refine List.map_congr_left fun o ho => ?_
      rw [ih o ho fun text ht => h text (List.mem_flatMap_of_mem ho ht)]
    rw [value_group, value_group, Chain.value, Chain.value, Chain.values_of, Chain.values_of,
      hvalues]

theorem Factor.readings_congr {v w : String → Truth} {operand : Factor}
    (h : ∀ text ∈ operand.atoms, v text = w text) : operand.readings v = operand.readings w := by
  rw [readings, readings, value_congr h, value_congr h]

/-- Truth values that an operand can be read as. -/
def Factor.Attains (operand : Factor) (readings : Truth × Truth) : Prop :=
  ∃ v, operand.readings v = readings

/-- An operand that can be true both ways, and false both ways. -/
def Factor.Settable (operand : Factor) : Prop :=
  ∀ b, operand.Attains (ofBool b, ofBool b)

/-- Operands without a common atom are read independently of each other. -/
theorem exists_readings {level : List (Connector × Factor)}
    {wanted : List (Connector × Truth × Truth)} (hatoms : (level.flatMap (·.2.atoms)).Nodup)
    (h : List.Forall₂ (fun o w => o.1 = w.1 ∧ o.2.Attains w.2) level wanted) :
    ∃ v, level.map (fun o => (o.1, o.2.readings v)) = wanted := by
  classical
  induction h with
  | nil => exact ⟨fun _ => .no, rfl⟩
  | @cons o w level wanted ho _ ih =>
    obtain ⟨hc, vo, hvo⟩ := ho
    rw [List.flatMap_cons, List.nodup_append] at hatoms
    obtain ⟨-, hrest, hdisjoint⟩ := hatoms
    obtain ⟨vr, hvr⟩ := ih hrest
    let v : String → Truth := fun text => if text ∈ o.2.atoms then vo text else vr text
    have hfirst : o.2.readings v = w.2 := by
      rw [← hvo]
      exact Factor.readings_congr fun text ht => if_pos ht
    have hothers : level.map (fun o => (o.1, o.2.readings v)) = wanted := by
      rw [← hvr]
      refine List.map_congr_left fun other hother => ?_
      have hcongr : other.2.readings v = other.2.readings vr := by
        refine Factor.readings_congr fun text ht => if_neg fun hin => ?_
        exact hdisjoint text hin text (List.mem_flatMap_of_mem hother ht) rfl
      rw [hcongr]
    refine ⟨v, ?_⟩
    rw [List.map_cons, hfirst, hothers, hc]

section Steering

variable {level : List (Connector × Factor)} {first : Factor} {others : List (Connector × Factor)}

/-- Settable operands are made true and false as chosen. -/
theorem forall₂_alike_truths {choice : List (Connector × Bool)}
    (hlevel : ∀ o ∈ level, o.2.Settable) (h : choice.map Prod.fst = level.map Prod.fst) :
    List.Forall₂ (fun o w => o.1 = w.1 ∧ o.2.Attains w.2) level (alike (truths choice)) := by
  induction level generalizing choice with
  | nil =>
    rw [List.map_nil, List.map_eq_nil_iff] at h
    rw [h]
    exact .nil
  | cons o level ih =>
    obtain ⟨⟨c, b⟩, choice, rfl, hc, hchoice⟩ := List.map_eq_cons_iff.mp h
    rw [List.forall_mem_cons] at hlevel
    exact .cons ⟨hc.symm, hlevel.1 b⟩ (ih hlevel.2 hchoice)

theorem map_fst_neutrals (cs : List Connector) : (neutrals cs).map Prod.fst = cs := by
  rw [neutrals, List.map_map]
  exact List.map_id' cs

theorem map_fst_leading (k : Connector) (cs : List Connector) :
    (leading k cs).map Prod.fst = cs := by
  induction cs with
  | nil => rfl
  | cons c cs ih => rw [leading, List.map_cons, ih]

theorem map_fst_lures (cs : List Connector) : (lures cs).map Prod.fst = cs := by
  induction cs with
  | nil => rfl
  | cons c cs ih =>
    cases c with
    | and => rw [lures, List.map_cons, ih]
    | or =>
      rw [lures, List.map_cons, List.map_map]
      exact congrArg (Connector.or :: ·) (List.map_id' cs)

/-- The operands around one can leave the reading of the level to it. -/
theorem levelReadings_steered (k : Connector) (w : Truth × Truth) (before after : List Connector) :
    levelReadings (alike (truths (leading k before)) ++
      (k, w) :: alike (truths (neutrals after))) = w := by
  have hboth : ∀ eval, Groups eval → ∀ a,
      eval (truths (leading k before) ++ (k, a) :: truths (neutrals after)) = a := by
    intro eval hgroups a
    rw [hgroups.leading, hgroups.neutrals]
  have hvalues : ∀ (pick : Truth × Truth → Truth), (∀ a, pick (a, a) = a) →
      (alike (truths (leading k before)) ++ (k, w) :: alike (truths (neutrals after))).map
        (fun o => (o.1, pick o.2)) =
      truths (leading k before) ++ (k, pick w) :: truths (neutrals after) := by
    intro pick hpick
    simp [alike, Function.comp_def, hpick]
  rw [levelReadings, hvalues Prod.fst fun _ => rfl, hvalues Prod.snd fun _ => rfl,
    hboth chainTruth groups_chainTruth, hboth truthFromLeft groups_truthFromLeft]

/-- A chain is read as one of its operands is, where the others can be true and false. -/
theorem Chain.exists_readings_of_mem (hatoms : (Chain.of first others).atoms.Nodup)
    (hsettable : ∀ o ∈ (Connector.and, first) :: others, o.2.Settable)
    {o : Connector × Factor} (ho : o ∈ (.and, first) :: others) {w : Truth × Truth}
    (hw : o.2.Attains w) : ∃ v, (Chain.of first others).readings v = w := by
  obtain ⟨before, after, hsplit⟩ := List.append_of_mem ho
  rw [hsplit, List.forall_mem_append, List.forall_mem_cons] at hsettable
  obtain ⟨hbefore, -, hafter⟩ := hsettable
  have hflat : ((before ++ o :: after).flatMap (·.2.atoms)).Nodup := by
    rw [← hsplit, ← atoms_of]
    exact hatoms
  have hwanted : List.Forall₂ (fun o w => o.1 = w.1 ∧ o.2.Attains w.2) (before ++ o :: after)
      (alike (truths (leading o.1 (before.map Prod.fst))) ++
        (o.1, w) :: alike (truths (neutrals (after.map Prod.fst)))) := by
    refine List.rel_append (forall₂_alike_truths hbefore (map_fst_leading _ _)) ?_
    exact .cons ⟨rfl, hw⟩ (forall₂_alike_truths hafter (map_fst_neutrals _))
  obtain ⟨v, hv⟩ := exists_readings hflat hwanted
  refine ⟨v, ?_⟩
  rw [readings_of, hsplit, hv]
  exact levelReadings_steered _ _ _ _

theorem Chain.nodup_atoms (hatoms : (Chain.of first others).atoms.Nodup) :
    ∀ o ∈ (Connector.and, first) :: others, o.2.atoms.Nodup := by
  rw [atoms_of, List.nodup_flatMap] at hatoms
  exact hatoms.1

/-- An operand whose atoms are all different can be made true both ways, and false both ways. -/
theorem Factor.settable {operand : Factor} (hatoms : operand.atoms.Nodup) : operand.Settable := by
  induction operand using Factor.levelInduction with
  | atom text =>
    intro b
    refine ⟨fun _ => ofBool b, ?_⟩
    rw [readings, value, value]
  | group negated first others ih =>
    intro b
    rw [atoms] at hatoms
    have hall : ∀ o ∈ (Connector.and, first) :: others, o.2.Settable :=
      fun o ho => ih o ho (Chain.nodup_atoms hatoms o ho)
    obtain ⟨v, hv⟩ := Chain.exists_readings_of_mem hatoms hall List.mem_cons_self
      (hall _ List.mem_cons_self (negated ^^ b))
    refine ⟨v, ?_⟩
    rw [readings_group, hv]
    cases negated <;> cases b <;> rfl

/-- An AND behind an OR decides between the readings of a level. -/
theorem Chain.exists_readings_of_connectors (hatoms : (Chain.of first others).atoms.Nodup)
    (h : ¬ Connector.AndsFirst (others.map Prod.fst)) :
    ∃ v, (Chain.of first others).readings v = (.yes, .no) := by
  have hall : ∀ o ∈ (Connector.and, first) :: others, o.2.Settable :=
    fun o ho => Factor.settable (nodup_atoms hatoms o ho)
  have hchoice : (((Connector.and, true) :: lures (others.map Prod.fst)).map Prod.fst) =
      ((Connector.and, first) :: others).map Prod.fst := by
    rw [List.map_cons, List.map_cons, map_fst_lures]
  rw [atoms_of] at hatoms
  obtain ⟨v, hv⟩ := exists_readings hatoms (forall₂_alike_truths hall hchoice)
  have hpick : ∀ choice : List (Connector × Bool),
      levelReadings (alike (truths choice)) =
        (chainTruth (truths choice), truthFromLeft (truths choice)) := by
    intro choice
    simp [levelReadings, alike, Function.comp_def]
  refine ⟨v, ?_⟩
  rw [readings_of, hv, hpick]
  exact Prod.ext (chainTruth_lures .and _) (truthFromLeft_lures .and h)

/-- The atoms of an operand can be chosen so that the readings differ if an AND stands behind an OR
on some level. -/
theorem Factor.exists_readings_ne {operand : Factor} (hatoms : operand.atoms.Nodup)
    (h : ¬ operand.AndsFirst) : ∃ w : Truth × Truth, w.1 ≠ w.2 ∧ operand.Attains w := by
  induction operand using Factor.levelInduction with
  | atom text =>
    rw [Factor.AndsFirst] at h
    exact absurd trivial h
  | group negated first others ih =>
    rw [atoms] at hatoms
    rw [Factor.AndsFirst, Chain.andsFirst_of, not_and_or] at h
    have hbody : ∃ w : Truth × Truth, w.1 ≠ w.2 ∧
        ∃ v, (Chain.of first others).readings v = w := by
      rcases h with hinside | hcs
      · -- An operand differs, and the others leave the level to it.
        push Not at hinside
        obtain ⟨o, ho, hnot⟩ := hinside
        obtain ⟨w, hne, hw⟩ := ih o ho (Chain.nodup_atoms hatoms o ho) hnot
        have hall : ∀ o ∈ (Connector.and, first) :: others, o.2.Settable :=
          fun o ho => settable (Chain.nodup_atoms hatoms o ho)
        exact ⟨w, hne, Chain.exists_readings_of_mem hatoms hall ho hw⟩
      · exact ⟨_, by decide, Chain.exists_readings_of_connectors hatoms hcs⟩
    obtain ⟨w, hne, v, hv⟩ := hbody
    refine ⟨(Factor.group negated (.of first others)).readings v, ?_, v, rfl⟩
    rw [readings_group, hv]
    cases negated with
    | false => exact hne
    | true =>
      intro heq
      apply hne
      rw [← w.1.not_not, ← w.2.not_not]
      exact congrArg Truth.not heq

end Steering

theorem Chain.value_eq {v : String → Truth} {chain : Chain} (h : chain.AndsFirst) :
    chain.value chainTruth v = chain.value truthFromLeft v := by
  have hgroup : (Factor.group false chain).AndsFirst := h
  have heq := Factor.value_eq (v := v) hgroup
  rw [Factor.value_group, Factor.value_group] at heq
  exact heq

/-- Where no atom occurs twice, a chain has one truth value both ways under every valuation exactly
if on every level each AND stands before each OR. -/
theorem Chain.forall_value_eq_iff {chain : Chain} (hatoms : chain.atoms.Nodup) :
    (∀ v, chain.value chainTruth v = chain.value truthFromLeft v) ↔ chain.AndsFirst := by
  constructor
  · intro h
    by_contra hnot
    have hgroup : ¬ (Factor.group false chain).AndsFirst := hnot
    have hgroupAtoms : (Factor.group false chain).atoms.Nodup := hatoms
    obtain ⟨w, hne, v, hv⟩ := Factor.exists_readings_ne hgroupAtoms hgroup
    rw [Factor.readings_group] at hv
    rw [← hv] at hne
    exact hne (h v)
  · intro h v
    exact value_eq h

end Reading

end SqlCompose
