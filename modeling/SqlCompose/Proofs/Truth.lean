import SqlCompose.Proofs.Filter

/-!
# The truth of a filter

A filter is read as a formula over the texts of its conditions: every condition is an atom, a
group is what its parentheses enclose. AND binds tighter than OR, so a level of the formula is an
OR of terms, and a term is an AND of operands. A valuation gives each atom one of the three truth
values of SQL. What an atom means is left open.
-/

namespace SqlCompose

/-- The truth values of SQL. -/
inductive Truth
  | no
  | unknown
  | yes
deriving DecidableEq, Repr

namespace Truth

def not : Truth → Truth
  | no => yes
  | unknown => unknown
  | yes => no

def and : Truth → Truth → Truth
  | no, _ | _, no => no
  | yes, yes => yes
  | _, _ => unknown

def or : Truth → Truth → Truth
  | yes, _ | _, yes => yes
  | no, no => no
  | _, _ => unknown

def all (values : List Truth) : Truth := values.foldr and yes

def any (values : List Truth) : Truth := values.foldr or no

/-- The truth value of a test that is never unknown. -/
def ofBool (b : Bool) : Truth := if b then yes else no

@[simp] theorem not_not (a : Truth) : a.not.not = a := by cases a <;> rfl

theorem not_ofBool (b : Bool) : (ofBool b).not = ofBool !b := by cases b <;> rfl

theorem or_assoc (a b c : Truth) : (a.or b).or c = a.or (b.or c) := by
  cases a <;> cases b <;> cases c <;> rfl

@[simp] theorem or_no (a : Truth) : a.or no = a := by cases a <;> rfl

@[simp] theorem no_or (a : Truth) : no.or a = a := by cases a <;> rfl

theorem not_or (a b : Truth) : (a.or b).not = a.not.and b.not := by
  cases a <;> cases b <;> rfl

theorem not_any (values : List Truth) : (any values).not = all (values.map not) := by
  induction values with
  | nil => rfl
  | cons a values ih =>
    rw [List.map_cons, all, List.foldr_cons, ← all, ← ih]
    exact not_or a (any values)

theorem not_all (values : List Truth) : (all values).not = any (values.map not) := by
  have h := not_any (values.map not)
  rw [List.map_map] at h
  have hid : values.map (not ∘ not) = values := by simp [Function.comp_def]
  rw [hid] at h
  rw [← h, not_not]

theorem any_append (values others : List Truth) :
    any (values ++ others) = (any values).or (any others) := by
  induction values with
  | nil => exact (no_or (any others)).symm
  | cons a values ih =>
    change a.or (any (values ++ others)) = (a.or (any values)).or (any others)
    rw [ih, or_assoc]

theorem and_eq_yes_iff {a b : Truth} : a.and b = yes ↔ a = yes ∧ b = yes := by
  cases a <;> cases b <;> decide

theorem and_eq_no_iff {a b : Truth} : a.and b = no ↔ a = no ∨ b = no := by
  cases a <;> cases b <;> decide

theorem or_eq_yes_iff {a b : Truth} : a.or b = yes ↔ a = yes ∨ b = yes := by
  cases a <;> cases b <;> decide

theorem or_eq_no_iff {a b : Truth} : a.or b = no ↔ a = no ∧ b = no := by
  cases a <;> cases b <;> decide

theorem all_eq_yes_iff {values : List Truth} : all values = yes ↔ ∀ a ∈ values, a = yes := by
  induction values with
  | nil => simp [all]
  | cons a values ih =>
    rw [List.forall_mem_cons, ← ih]
    exact and_eq_yes_iff

theorem all_eq_no_iff {values : List Truth} : all values = no ↔ ∃ a ∈ values, a = no := by
  induction values with
  | nil => simp [all]
  | cons a values ih =>
    rw [List.exists_mem_cons_iff, ← ih]
    exact and_eq_no_iff

theorem any_eq_yes_iff {values : List Truth} : any values = yes ↔ ∃ a ∈ values, a = yes := by
  induction values with
  | nil => simp [any]
  | cons a values ih =>
    rw [List.exists_mem_cons_iff, ← ih]
    exact or_eq_yes_iff

theorem any_eq_no_iff {values : List Truth} : any values = no ↔ ∀ a ∈ values, a = no := by
  induction values with
  | nil => simp [any]
  | cons a values ih =>
    rw [List.forall_mem_cons, ← ih]
    exact or_eq_no_iff

/-- Two of the values decide which one it is. -/
theorem eq_of_iffs {a b : Truth} (hyes : a = yes ↔ b = yes) (hno : a = no ↔ b = no) : a = b := by
  cases a <;> cases b <;> simp_all

/-- The order of the operands of OR does not matter. -/
theorem any_perm {values others : List Truth} (h : values.Perm others) :
    any values = any others := by
  refine eq_of_iffs ?_ ?_
  · rw [any_eq_yes_iff, any_eq_yes_iff]
    simp only [h.mem_iff]
  · rw [any_eq_no_iff, any_eq_no_iff]
    simp only [h.mem_iff]

end Truth

/-- Operands cut at each OR. The connector of the first operand is not read. -/
def orTerms {α : Type} : List (Connector × α) → List (List α)
  | [] => []
  | [(_, a)] => [[a]]
  | (_, a) :: (.or, b) :: rest => [a] :: orTerms ((.or, b) :: rest)
  | (_, a) :: (.and, b) :: rest => (orTerms ((.and, b) :: rest)).modifyHead (a :: ·)

theorem orTerms_ne_nil {α : Type} {first : Connector × α} {rest : List (Connector × α)} :
    orTerms (first :: rest) ≠ [] := by
  induction rest generalizing first with
  | nil => simp [orTerms]
  | cons next rest ih =>
    obtain ⟨_ | _, b⟩ := next
    · simpa [orTerms] using ih
    · simp [orTerms]

/-- The first operand stands at the start of the first term. -/
theorem orTerms_cons {α : Type} (a : α) (rest : List (Connector × α)) :
    ∃ term others, ∀ first : Connector, orTerms ((first, a) :: rest) = (a :: term) :: others := by
  cases rest with
  | nil => exact ⟨[], [], fun _ => rfl⟩
  | cons next rest =>
    obtain ⟨_ | _, b⟩ := next
    · cases h : orTerms ((Connector.and, b) :: rest) with
      | nil => exact absurd h orTerms_ne_nil
      | cons term others => exact ⟨term, others, fun _ => by rw [orTerms, h]; rfl⟩
    · exact ⟨[], orTerms ((.or, b) :: rest), fun _ => by rw [orTerms]⟩

theorem orTerms_map {α β : Type} (f : α → β) (operands : List (Connector × α)) :
    orTerms (operands.map fun o => (o.1, f o.2)) = (orTerms operands).map (·.map f) := by
  induction operands using orTerms.induct with
  | case1 => rfl
  | case2 => rfl
  | case3 connector a b rest ih =>
    rw [List.map_cons] at ih
    rw [List.map_cons, List.map_cons, orTerms, orTerms, ih, List.map_cons]
    rfl
  | case4 connector a b rest ih =>
    rw [List.map_cons] at ih
    rw [List.map_cons, List.map_cons, orTerms, orTerms, ih]
    cases orTerms ((Connector.and, b) :: rest) <;> rfl

/-- The operands of a level are those of its terms. -/
theorem flatten_orTerms {α : Type} (operands : List (Connector × α)) :
    (orTerms operands).flatten = operands.map Prod.snd := by
  induction operands using orTerms.induct with
  | case1 => rfl
  | case2 => rfl
  | case3 connector a b rest ih => rw [orTerms, List.flatten_cons, ih]; rfl
  | case4 connector a b rest ih =>
    rw [orTerms, List.map_cons, ← ih]
    cases h : orTerms ((Connector.and, b) :: rest) with
    | nil => exact absurd h orTerms_ne_nil
    | cons term others => simp

theorem exists_operand_of_mem_orTerms {α : Type} {operands : List (Connector × α)} {term : List α}
    (ht : term ∈ orTerms operands) {a : α} (ha : a ∈ term) : ∃ o ∈ operands, o.2 = a := by
  have hin : a ∈ (orTerms operands).flatten := List.mem_flatten.mpr ⟨term, ht, ha⟩
  rw [flatten_orTerms] at hin
  exact List.mem_map.mp hin

/-- A filter as a formula over the texts of its conditions. -/
inductive Formula
  | atom (text : String)
  | group (negated : Bool) (body : List (Connector × Formula))

/-- The operands of one level of a formula. -/
abbrev Level := List (Connector × Formula)

/-- The truth of a chain of operands. One without operands restricts nothing. -/
def chainTruth (operands : List (Connector × Truth)) : Truth :=
  if operands.isEmpty then .yes else Truth.any ((orTerms operands).map Truth.all)

mutual

def Formula.truth (v : String → Truth) : Formula → Truth
  | .atom text => v text
  | .group negated body =>
      if negated then (chainTruth (operandTruths v body)).not else chainTruth (operandTruths v body)

/-- The truth values of the operands of a level. -/
def operandTruths (v : String → Truth) : Level → List (Connector × Truth)
  | [] => []
  | (connector, f) :: rest => (connector, f.truth v) :: operandTruths v rest

end

theorem operandTruths_eq_map (v : String → Truth) (level : Level) :
    operandTruths v level = level.map fun o => (o.1, o.2.truth v) := by
  induction level with
  | nil => rw [operandTruths, List.map_nil]
  | cons o rest ih => rw [operandTruths, List.map_cons, ih]

/-- The truth of a level under a valuation of its atoms. -/
def levelTruth (v : String → Truth) (level : Level) : Truth := chainTruth (operandTruths v level)

theorem levelTruth_eq_any {v : String → Truth} {level : Level} (hl : level ≠ []) :
    levelTruth v level =
      Truth.any ((orTerms level).map fun term => Truth.all (term.map (·.truth v))) := by
  rw [levelTruth, chainTruth, operandTruths_eq_map, if_neg (by simpa using hl), orTerms_map,
    List.map_map]
  rfl

theorem levelTruth_eq_yes_iff {v : String → Truth} {level : Level} (hl : level ≠ []) :
    levelTruth v level = .yes ↔ ∃ term ∈ orTerms level, ∀ f ∈ term, f.truth v = .yes := by
  rw [levelTruth_eq_any hl, Truth.any_eq_yes_iff]
  simp [Truth.all_eq_yes_iff]

theorem levelTruth_eq_no_iff {v : String → Truth} {level : Level} (hl : level ≠ []) :
    levelTruth v level = .no ↔ ∀ term ∈ orTerms level, ∃ f ∈ term, f.truth v = .no := by
  rw [levelTruth_eq_any hl, Truth.any_eq_no_iff]
  simp [Truth.all_eq_no_iff]

/-- Each term of the first level contains a term of the second. -/
def Level.Entails (first second : Level) : Prop :=
  ∀ term ∈ orTerms first, ∃ part ∈ orTerms second, part ⊆ term

namespace Level.Entails

variable {first second : Level}

theorem yes (h : first.Entails second) (hf : first ≠ []) (hs : second ≠ [])
    {v : String → Truth} (hy : levelTruth v first = .yes) : levelTruth v second = .yes := by
  rw [levelTruth_eq_yes_iff hf] at hy
  rw [levelTruth_eq_yes_iff hs]
  obtain ⟨term, hterm, hall⟩ := hy
  obtain ⟨part, hpart, hsub⟩ := h term hterm
  exact ⟨part, hpart, fun f hmem => hall f (hsub hmem)⟩

theorem no (h : first.Entails second) (hf : first ≠ []) (hs : second ≠ [])
    {v : String → Truth} (hn : levelTruth v second = .no) : levelTruth v first = .no := by
  rw [levelTruth_eq_no_iff hs] at hn
  rw [levelTruth_eq_no_iff hf]
  intro term hterm
  obtain ⟨part, hpart, hsub⟩ := h term hterm
  obtain ⟨f, hmem, hno⟩ := hn part hpart
  exact ⟨f, hsub hmem, hno⟩

/-- Levels that entail each other have the same truth under every valuation. -/
theorem levelTruth_eq (h : first.Entails second) (hr : second.Entails first) (hf : first ≠ [])
    (hs : second ≠ []) (v : String → Truth) : levelTruth v first = levelTruth v second :=
  Truth.eq_of_iffs ⟨h.yes hf hs, hr.yes hs hf⟩ ⟨hr.no hs hf, h.no hf hs⟩

/-- Over levels of atoms entailment is what every valuation shows: the one that makes exactly the
atoms of a term true makes some term of the second level true. -/
theorem of_forall_yes (hatoms : ∀ o ∈ second, ∃ text, o.2 = .atom text)
    (hfirst : ∀ o ∈ first, ∃ text, o.2 = .atom text) (hs : second ≠ [])
    (h : ∀ v, levelTruth v first = .yes → levelTruth v second = .yes) :
    first.Entails second := by
  classical
  intro term hterm
  let v : String → Truth := fun text => if Formula.atom text ∈ term then .yes else .no
  have hf : first ≠ [] := by
    rintro rfl
    cases hterm
  have hyes : levelTruth v first = .yes := by
    rw [levelTruth_eq_yes_iff hf]
    refine ⟨term, hterm, fun f hmem => ?_⟩
    obtain ⟨o, ho, rfl⟩ := exists_operand_of_mem_orTerms hterm hmem
    obtain ⟨text, htext⟩ := hfirst o ho
    rw [htext] at hmem ⊢
    rw [Formula.truth]
    exact if_pos hmem
  obtain ⟨part, hpart, hall⟩ := (levelTruth_eq_yes_iff hs).mp (h v hyes)
  refine ⟨part, hpart, fun f hmem => ?_⟩
  obtain ⟨o, ho, rfl⟩ := exists_operand_of_mem_orTerms hpart hmem
  obtain ⟨text, htext⟩ := hatoms o ho
  have htrue := hall o.2 hmem
  rw [htext, Formula.truth] at htrue
  rw [htext]
  by_contra hout
  simp [v, hout] at htrue

end Level.Entails

namespace Sql

mutual

/-- An operand as a formula. Every condition is one atom, a sub-select included. -/
def Predicate.formula (d : Dialect) : Predicate → Formula
  | .group negated body => .group negated (linkFormulas d body)
  | p => .atom (p.text d)

/-- The operands of a filter as a level of a formula. -/
def linkFormulas (d : Dialect) : List Link → Level
  | [] => []
  | ⟨connector, operand⟩ :: rest => (connector, operand.formula d) :: linkFormulas d rest

end

theorem linkFormulas_eq_map (d : Dialect) (links : List Link) :
    linkFormulas d links = links.map fun link => (link.connector, link.operand.formula d) := by
  induction links with
  | nil => rw [linkFormulas, List.map_nil]
  | cons link rest ih =>
    obtain ⟨connector, operand⟩ := link
    rw [linkFormulas, List.map_cons, ih]

/-- The truth of a filter under a valuation of the texts of its conditions. -/
def filterTruth (d : Dialect) (v : String → Truth) (links : List Link) : Truth :=
  levelTruth v (linkFormulas d links)

end Sql

end SqlCompose
