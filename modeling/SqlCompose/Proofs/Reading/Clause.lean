import SqlCompose.Proofs.Meaning.Comparison

/-!
# Comparisons as they are read

The words of a comparison say which column is compared, how and with what. An operand of AND and OR
is one comparison, or several in parentheses with a connector between each two of them. Here both
are read from their words, without a look at how these came about.
-/

namespace SqlCompose.Reading

/-- A comparison, its operands by their words. -/
inductive Test
  | compare (left : String) (op : Operator) (right : String)
  | is (left : String) (negated : Bool) (right : String)
  | isIn (left : String) (negated : Bool) (entries : List String)
deriving DecidableEq, Repr

/-- The words of an operator. -/
def operatorWords : Operator → List String
  | .notLike => ["NOT", "LIKE"]
  | op => [op.sql]

/-- The operator that is one word. -/
def operator? (w : String) : Option Operator :=
  [.eq, .ne, .gt, .ge, .lt, .le, .like].find? fun op => op.sql == w

/-- The entries of a list up to its closing parenthesis. -/
def entries? : List String → Option (List String)
  | entry :: stop :: rest =>
      if stop = "," then (entries? rest).map (entry :: ·)
      else if stop = ")" ∧ rest = [] then some [entry]
      else none
  | _ => none

/-- The words between entries and behind the last one. -/
def listWords (entries : List String) : List String :=
  [","].intercalate (entries.map fun entry => [entry]) ++ [")"]

namespace Test

def words : Test → List String
  | compare left op right => left :: (operatorWords op ++ [right])
  | is left negated right => left :: ((if negated then ["IS", "NOT"] else ["IS"]) ++ [right])
  | isIn left negated entries =>
      left :: ((if negated then ["NOT", "IN", "("] else ["IN", "("]) ++ listWords entries)

/-- Reads words as a comparison. -/
def read : List String → Option Test
  | [left, w, right] =>
      if w = "IS" then some (is left false right) else (operator? w).map (compare left · right)
  | [left, w, next, right] =>
      if w = "IS" ∧ next = "NOT" then some (is left true right)
      else if w = "NOT" ∧ next = "LIKE" then some (compare left .notLike right)
      else none
  | left :: w :: next :: third :: rest =>
      if w = "IN" ∧ next = "(" then (entries? (third :: rest)).map (isIn left false)
      else if w = "NOT" ∧ next = "IN" ∧ third = "(" then (entries? rest).map (isIn left true)
      else none
  | _ => none

/-- What a comparison compares. -/
def left : Test → String
  | compare left _ _ | is left _ _ | isIn left _ _ => left

/-- What a comparison compares with. -/
def operands : Test → List String
  | compare _ _ right | is _ _ right => [right]
  | isIn _ _ entries => entries

/-- The meaning of a comparison. -/
def truth {α : Type} (means : Meaning α) : Test → Truth
  | compare left op right => means.compare op (means.operand left) (means.operand right)
  | is left negated right =>
      let t := means.is (means.operand left) (means.operand right)
      if negated then t.not else t
  | isIn left negated entries =>
      let t := means.isIn (means.operand left) (entries.map means.operand)
      if negated then t.not else t

/-- A comparison by an operator that stands between operands, or with a list that has entries. -/
def WellFormed : Test → Prop
  | compare _ op _ => op.isExists = false
  | is _ _ _ => True
  | isIn _ _ entries => entries ≠ []

end Test

theorem listWords_cons_cons (entry next : String) (rest : List String) :
    listWords (entry :: next :: rest) = entry :: "," :: listWords (next :: rest) := by
  rw [listWords, listWords, List.map_cons, List.map_cons, List.intercalate_cons_cons]
  rfl

theorem entries?_listWords {entries : List String} (h : entries ≠ []) :
    entries? (listWords entries) = some entries := by
  induction entries with
  | nil => exact absurd rfl h
  | cons entry rest ih =>
    cases rest with
    | nil => rfl
    | cons next rest =>
      rw [listWords_cons_cons, entries?, if_pos rfl, ih (by simp)]
      rfl

/-- A list with entries has two words at least. -/
theorem exists_listWords {entries : List String} (h : entries ≠ []) :
    ∃ entry stop rest, listWords entries = entry :: stop :: rest := by
  obtain _ | ⟨entry, _ | ⟨next, rest⟩⟩ := entries
  · exact absurd rfl h
  · exact ⟨entry, ")", [], rfl⟩
  · exact ⟨entry, ",", listWords (next :: rest), listWords_cons_cons entry next rest⟩

/-- A comparison is read back from its words. -/
theorem Test.read_words {t : Test} (h : t.WellFormed) : read t.words = some t := by
  cases t with
  | compare left op right =>
    cases op with
    | rowExists | noRowExists => cases h
    | eq | ne | gt | ge | lt | le | like | notLike => rfl
  | is left negated right => cases negated <;> rfl
  | isIn left negated entries =>
    have hentries := entries?_listWords h
    obtain ⟨entry, stop, rest, hwords⟩ := exists_listWords h
    rw [words, hwords]
    rw [hwords] at hentries
    cases negated with
    | false =>
      change (entries? (entry :: stop :: rest)).map (isIn left false) = _
      rw [hentries]
      rfl
    | true =>
      change (entries? (entry :: stop :: rest)).map (isIn left true) = _
      rw [hentries]
      rfl

/-- An operand of AND and OR: one comparison, or several in parentheses. Of these each has the
connector that stands before it, and the first one has AND in its place. -/
structure Clause where
  enclosed : Bool
  tests : List (Connector × Test)
deriving DecidableEq, Repr

/-- Words cut at the connectors that stand outside parentheses. -/
def stretches (depth : Nat) (connector : Connector) (taken : List String) :
    List String → List (Connector × List String)
  | [] => [(connector, taken)]
  | w :: rest =>
      if w = "(" then stretches (depth + 1) connector (taken ++ [w]) rest
      else if w = ")" then stretches (depth - 1) connector (taken ++ [w]) rest
      else if depth = 0 ∧ w = "AND" then (connector, taken) :: stretches 0 .and [] rest
      else if depth = 0 ∧ w = "OR" then (connector, taken) :: stretches 0 .or [] rest
      else stretches depth connector (taken ++ [w]) rest

/-- Words that are one operand of AND and OR wherever they stand: no connector is outside
parentheses. -/
def IsOperand (ws : List String) : Prop := stretches 0 .and [] ws = [(.and, ws)]

/-- Reads the words behind a connector as a comparison. -/
def readStretch (stretch : Connector × List String) : Option (Connector × Test) :=
  (Test.read stretch.2).map (stretch.1, ·)

namespace Clause

/-- Reads words as an operand of AND and OR. -/
def read (ws : List String) : Option Clause :=
  if ws.head? = some "(" then
    if ws.getLast? = some ")" then
      ((stretches 0 .and [] ws.tail.dropLast).mapM readStretch).map (⟨true, ·⟩)
    else none
  else (Test.read ws).map fun t => ⟨false, [(.and, t)]⟩

/-- What the comparisons compare with, in order. -/
def operands (clause : Clause) : List String := clause.tests.flatMap fun entry => entry.2.operands

/-- The meaning of an operand of AND and OR. -/
def truth {α : Type} (means : Meaning α) (clause : Clause) : Truth :=
  chainTruth (clause.tests.map fun entry => (entry.1, entry.2.truth means))

end Clause

/-- The words that part operands. -/
def reserved : List String := ["(", ")", "AND", "OR"]

/-- Words among which no connector stands outside parentheses, where `depth` parentheses are open
around them. -/
def Passes (depth : Nat) (ws : List String) : Prop :=
  ∀ more connector taken rest, stretches (depth + more) connector taken (ws ++ rest) =
    stretches (depth + more) connector (taken ++ ws) rest

namespace Passes

variable {depth : Nat} {us ws : List String}

theorem append (hu : Passes depth us) (hw : Passes depth ws) : Passes depth (us ++ ws) := by
  intro more connector taken rest
  rw [List.append_assoc, hu, hw, List.append_assoc]

theorem nil : Passes depth [] := fun more connector taken rest => by
  rw [List.nil_append, List.append_nil]

/-- A word that is neither a connector nor a parenthesis. -/
theorem word {w : String} (h : w ∉ reserved) : Passes depth [w] := by
  intro more connector taken rest
  simp only [reserved, List.mem_cons, List.not_mem_nil, or_false, not_or] at h
  rw [List.singleton_append, stretches]
  simp only [h, and_false, if_false]

theorem inside (h : Passes depth ws) : Passes (depth + 1) ws := by
  intro more connector taken rest
  have hdepth : depth + 1 + more = depth + (1 + more) := by omega
  rw [hdepth, h]

/-- Inside parentheses a connector is a word like any other. -/
theorem connector (c : Connector) : Passes 1 [c.sql] := by
  intro more connector taken rest
  rw [List.singleton_append, stretches]
  cases c <;> simp [Connector.sql]

theorem parens (h : Passes 1 ws) : Passes 0 ("(" :: ws ++ [")"]) := by
  intro more connector taken rest
  have hdepth : 0 + more + 1 = 1 + more := by omega
  have hback : 1 + more - 1 = 0 + more := by omega
  rw [List.append_assoc, List.cons_append, stretches, if_pos rfl, hdepth, h, List.singleton_append,
    stretches, if_neg (by decide), if_pos rfl, hback]
  simp

theorem isOperand (h : Passes 0 ws) : IsOperand ws := by
  have hall := h 0 .and [] []
  rw [List.append_nil, List.nil_append] at hall
  rw [IsOperand, hall, stretches]

theorem intercalate {between : List String} (hbetween : Passes depth between)
    {wss : List (List String)} (h : ∀ ws ∈ wss, Passes depth ws) :
    Passes depth (between.intercalate wss) := by
  induction wss with
  | nil => exact nil
  | cons ws wss ih =>
    rw [List.forall_mem_cons] at h
    cases wss with
    | nil =>
      rw [List.intercalate_singleton]
      exact h.1
    | cons next wss =>
      rw [List.intercalate_cons_cons]
      exact (h.1.append hbetween).append (ih h.2)

/-- Words cut at a connector between each two stretches. -/
theorem stretches_intercalate {c : Connector} {wss : List (List String)}
    (h : ∀ ws ∈ wss, Passes 0 ws) (first : List String) (hfirst : Passes 0 first)
    (before : Connector) :
    stretches 0 before [] ([c.sql].intercalate (first :: wss)) =
      (before, first) :: wss.map (c, ·) := by
  induction wss generalizing first before with
  | nil =>
    have hall := hfirst 0 before [] []
    rw [List.append_nil, List.nil_append] at hall
    rw [List.intercalate_singleton, List.map_nil, hall, stretches]
  | cons next wss ih =>
    rw [List.forall_mem_cons] at h
    have hcut : ∀ rest, stretches 0 before first (c.sql :: rest) =
        (before, first) :: stretches 0 c [] rest := by
      intro rest
      rw [stretches]
      cases c <;> simp [Connector.sql]
    have hall := hfirst 0 before [] (c.sql :: [c.sql].intercalate (next :: wss))
    rw [List.nil_append] at hall
    rw [List.intercalate_cons_cons, List.append_assoc, List.singleton_append, hall, hcut,
      ih h.2 next h.1, List.map_cons]

end Passes

/-- A comparison none of whose operands parts others. -/
def Test.Plain (t : Test) : Prop := t.left ∉ reserved ∧ ∀ w ∈ t.operands, w ∉ reserved

theorem Test.passes_words {t : Test} (h : t.Plain) : Passes 0 t.words := by
  obtain ⟨hleft, hoperands⟩ := h
  cases t with
  | compare left op right =>
    have hop : Passes 0 (operatorWords op) := by
      cases op with
      | notLike => exact (Passes.word (w := "NOT") (by decide)).append (.word (by decide))
      | eq | ne | gt | ge | lt | le | like | rowExists | noRowExists => exact .word (by decide)
    exact (Passes.word hleft).append (hop.append (.word (hoperands right (by simp [operands]))))
  | is left negated right =>
    have hwords : Passes 0 (if negated then ["IS", "NOT"] else ["IS"]) := by
      cases negated with
      | true => exact (Passes.word (w := "IS") (by decide)).append (.word (by decide))
      | false => exact .word (by decide)
    exact (Passes.word hleft).append (hwords.append (.word (hoperands right (by simp [operands]))))
  | isIn left negated entries =>
    have hentries : Passes 1 ([","].intercalate (entries.map fun entry => [entry])) := by
      refine Passes.intercalate (.word (by decide)) fun ws hws => ?_
      obtain ⟨entry, hentry, rfl⟩ := List.mem_map.mp hws
      exact .word (hoperands entry hentry)
    have hin : Passes 0 ["IN"] := .word (by decide)
    have hnot : Passes 0 ["NOT"] := .word (by decide)
    cases negated with
    | true => exact (Passes.word hleft).append (hnot.append (hin.append hentries.parens))
    | false => exact (Passes.word hleft).append (hin.append hentries.parens)

namespace Clause

/-- A comparison alone is read as such. -/
theorem read_test {t : Test} (hwell : t.WellFormed) (hplain : t.Plain) :
    read t.words = some ⟨false, [(.and, t)]⟩ := by
  have hhead : t.words.head? = some t.left := by cases t <;> rfl
  have hne : t.left ≠ "(" := fun heq => hplain.1 (by rw [heq]; decide)
  rw [read, hhead, if_neg (by simpa using hne), Test.read_words hwell]
  rfl

theorem mapM_readStretch (tests : List (Connector × Test))
    (h : ∀ entry ∈ tests, entry.2.WellFormed) :
    (tests.map fun entry => (entry.1, entry.2.words)).mapM readStretch = some tests := by
  induction tests with
  | nil => rfl
  | cons entry tests ih =>
    rw [List.forall_mem_cons] at h
    rw [List.map_cons, List.mapM_cons, readStretch, Test.read_words h.1, ih h.2]
    rfl

/-- Comparisons in parentheses with a connector between each two of them are read as such. -/
theorem read_parens {c : Connector} {first : Test} {rest : List Test}
    (hwell : ∀ t ∈ first :: rest, t.WellFormed) (hplain : ∀ t ∈ first :: rest, t.Plain) :
    read ("(" :: [c.sql].intercalate ((first :: rest).map Test.words) ++ [")"]) =
      some ⟨true, (.and, first) :: rest.map (c, ·)⟩ := by
  rw [List.forall_mem_cons] at hwell hplain
  have hpasses : ∀ ws ∈ rest.map Test.words, Passes 0 ws := by
    intro ws hws
    obtain ⟨t, ht, rfl⟩ := List.mem_map.mp hws
    exact Test.passes_words (hplain.2 t ht)
  have hcut := Passes.stretches_intercalate (c := c) hpasses first.words
    (Test.passes_words hplain.1) .and
  have hread := mapM_readStretch ((.and, first) :: rest.map (c, ·)) fun entry hentry => by
    rcases List.mem_cons.mp hentry with rfl | hrest
    · exact hwell.1
    · obtain ⟨t, ht, rfl⟩ := List.mem_map.mp hrest
      exact hwell.2 t ht
  have hlast : ("(" :: [c.sql].intercalate ((first :: rest).map Test.words) ++ [")"]).getLast? =
      some ")" := List.getLast?_concat
  simp only [List.map_cons, List.map_map, Function.comp_def] at hread hcut
  rw [read, if_pos hlast, List.cons_append, List.head?_cons, if_pos rfl, List.tail_cons,
    List.dropLast_concat, List.map_cons, hcut, hread]
  rfl

/-- Comparisons in parentheses are one operand of AND and OR. -/
theorem isOperand_parens {c : Connector} {tests : List Test} (hplain : ∀ t ∈ tests, t.Plain) :
    IsOperand ("(" :: [c.sql].intercalate (tests.map Test.words) ++ [")"]) := by
  refine Passes.isOperand (Passes.parens (Passes.intercalate (.connector c) fun ws hws => ?_))
  obtain ⟨t, ht, rfl⟩ := List.mem_map.mp hws
  exact (Test.passes_words (hplain t ht)).inside

end Clause

/-- Operands with OR between each two of them are the terms of a level. -/
theorem chainTruth_or (unread : Connector) (first : Truth) (rest : List Truth) :
    chainTruth ((unread, first) :: rest.map (.or, ·)) = Truth.any (first :: rest) := by
  have hterms : ∀ unread first, orTerms ((unread, first) :: rest.map (Connector.or, ·)) =
      [first] :: rest.map fun t => [t] := by
    induction rest with
    | nil => exact fun _ _ => rfl
    | cons next rest ih => exact fun _ first => congrArg ([first] :: ·) (ih .or next)
  have hsingle : ∀ t, Truth.all [t] = t := fun t => by cases t <;> rfl
  rw [chainTruth, hterms]
  simp [Function.comp_def, hsingle]

/-- Operands with AND between each two of them are one term. -/
theorem chainTruth_and (unread : Connector) (first : Truth) (rest : List Truth) :
    chainTruth ((unread, first) :: rest.map (.and, ·)) = Truth.all (first :: rest) := by
  have hterms : ∀ unread first, orTerms ((unread, first) :: rest.map (Connector.and, ·)) =
      [first :: rest] := by
    induction rest with
    | nil => exact fun _ _ => rfl
    | cons next rest ih =>
      intro unread first
      rw [List.map_cons, orTerms, ih .and next]
      rfl
  rw [chainTruth, hterms]
  exact Truth.or_no _

/-- The meaning of comparisons with one connector between each two of them. -/
theorem Clause.truth_joined {α : Type} (means : Meaning α) (enclosed : Bool) (unread c : Connector)
    (first : Test) (rest : List Test) :
    Clause.truth means ⟨enclosed, (unread, first) :: rest.map (c, ·)⟩ =
      match c with
      | .and => Truth.all ((first :: rest).map (·.truth means))
      | .or => Truth.any ((first :: rest).map (·.truth means)) := by
  have htruths : (rest.map (c, ·)).map (fun entry => (entry.1, entry.2.truth means)) =
      (rest.map (·.truth means)).map (c, ·) := by
    rw [List.map_map, List.map_map]
    rfl
  rw [truth, List.map_cons, htruths]
  cases c with
  | and => exact chainTruth_and unread _ _
  | or => exact chainTruth_or unread _ _

end SqlCompose.Reading
