/-!
# Scanning a statement

A database walks through a statement. It tells quoted tokens from what stands outside them, and
there it counts parentheses. A quoted token is closed by its quote, unless the quote is written twice;
in a string a backslash may take the next character in. `Nests` says what a piece of text does to
the count wherever the scan stands outside quoted tokens, so pieces may be put together.
-/

namespace SqlCompose

/-- How a database reads quoted tokens: the quote around names, and whether a backslash in a
string escapes. -/
structure Quoting where
  name : Char
  backslash : Bool
deriving DecidableEq, Repr

/-- Where a scan stands. -/
inductive Place
  | outside
  /-- In a token that this quote closes. -/
  | inside (quote : Char)
  /-- After a closing quote. The same quote again would take it back. -/
  | closed (quote : Char)
  /-- After a backslash that escapes. -/
  | escaped
deriving DecidableEq, Repr

/-- A place and the number of open parentheses. -/
structure Scan where
  place : Place
  depth : Nat
deriving DecidableEq, Repr

namespace Quoting

/-- Whether a character opens a quoted token. -/
def opens (rules : Quoting) (c : Char) : Bool := c == rules.name || c == '\''

/-- Reads a character outside quoted tokens. A parenthesis without its opening one ends the
scan. -/
def readOutside (rules : Quoting) (depth : Nat) (c : Char) : Option Scan :=
  if rules.opens c then some ⟨.inside c, depth⟩
  else if c = '(' then some ⟨.outside, depth + 1⟩
  else if c = ')' then if depth = 0 then none else some ⟨.outside, depth - 1⟩
  else some ⟨.outside, depth⟩

/-- Whether a character in a quoted token escapes the next one. -/
def escapes (rules : Quoting) (quote c : Char) : Bool :=
  rules.backslash && quote == '\'' && c == '\\'

/-- Reads a character. -/
def read (rules : Quoting) (s : Scan) (c : Char) : Option Scan :=
  match s.place with
  | .outside => rules.readOutside s.depth c
  | .inside quote =>
      if c = quote then some ⟨.closed quote, s.depth⟩
      else if rules.escapes quote c then some ⟨.escaped, s.depth⟩
      else some s
  | .closed quote =>
      if c = quote then some ⟨.inside quote, s.depth⟩ else rules.readOutside s.depth c
  | .escaped => some ⟨.inside '\'', s.depth⟩

def scan (rules : Quoting) (s : Scan) (text : List Char) : Option Scan :=
  text.foldlM rules.read s

/-- Whether a scan from the start of a text ends outside quoted tokens with every parenthesis
closed, and none is closed before it was opened. -/
def balanced (rules : Quoting) (text : String) : Bool :=
  match rules.scan ⟨.outside, 0⟩ text.toList with
  | some ⟨.outside, 0⟩ | some ⟨.closed _, 0⟩ => true
  | _ => false

/-- The scan stands outside quoted tokens, with a number of open parentheses. -/
structure Outside (rules : Quoting) (depth : Nat) (s : Scan) : Prop where
  place : s.place = .outside ∨ ∃ quote, s.place = .closed quote ∧ rules.opens quote
  depth : s.depth = depth

/-- A text that leads from `before` open parentheses to `after`, over any that are open
around it. -/
def Nests (rules : Quoting) (before after : Nat) (text : String) : Prop :=
  ∀ n s, rules.Outside (n + before) s →
    ∃ t, rules.scan s text.toList = some t ∧ rules.Outside (n + after) t

/-- A text that leaves the scan as it found it. -/
abbrev Neutral (rules : Quoting) (text : String) : Prop := rules.Nests 0 0 text

variable {rules : Quoting}

/-- After a closing quote the scan goes on as if it stood outside: its own quote opens a token
there, too. -/
theorem Outside.read_eq {depth : Nat} {s : Scan} (h : rules.Outside depth s) (c : Char) :
    rules.read s c = rules.readOutside depth c := by
  obtain ⟨place, n⟩ := s
  obtain ⟨hplace, rfl⟩ := h
  rcases hplace with rfl | ⟨quote, rfl, hq⟩
  · rfl
  · by_cases hc : c = quote
    · subst hc
      simp only [read, if_true, readOutside, if_pos hq]
    · simp only [read, if_neg hc]

theorem scan_cons {s t : Scan} {c : Char} (h : rules.read s c = some t) (rest : List Char) :
    rules.scan s (c :: rest) = rules.scan t rest := by
  rw [scan, List.foldlM_cons, h]
  rfl

theorem scan_append (s : Scan) (u w : List Char) :
    rules.scan s (u ++ w) = (rules.scan s u).bind fun t => rules.scan t w := by
  rw [scan, List.foldlM_append]
  rfl

/-- A text that leads from one place to another and not outside quoted tokens on the way, nor at
its end, though maybe behind a closing quote. -/
inductive Within (rules : Quoting) : Scan → List Char → Scan → Prop
  | nil {s : Scan} : Within rules s [] s
  | cons {s t u : Scan} {c : Char} {rest : List Char} (hread : rules.read s c = some t)
      (hplace : t.place ≠ .outside) (hrest : Within rules t rest u) :
      Within rules s (c :: rest) u

theorem Within.scan_eq {s t : Scan} {text : List Char} (h : rules.Within s text t) :
    rules.scan s text = some t := by
  induction h with
  | nil => rfl
  | cons hread _ _ ih => rw [scan_cons hread, ih]

namespace Nests

variable {k l m : Nat} {u w : String}

theorem append (hu : rules.Nests k l u) (hw : rules.Nests l m w) :
    rules.Nests k m (u ++ w) := by
  intro n s hs
  obtain ⟨t, ht, hto⟩ := hu n s hs
  obtain ⟨r, hr, hro⟩ := hw n t hto
  refine ⟨r, ?_, hro⟩
  rw [String.toList_append, scan_append, ht]
  exact hr

theorem lift (h : rules.Nests k l w) (j : Nat) : rules.Nests (k + j) (l + j) w := by
  intro n s hs
  have hk : n + (k + j) = n + j + k := by omega
  have hl : n + (l + j) = n + j + l := by omega
  rw [hk] at hs
  rw [hl]
  exact h (n + j) s hs

theorem empty : rules.Nests k k "" := fun _ s hs => ⟨s, rfl, hs⟩

end Nests

/-- A text without quoted tokens leads where counting its parentheses leads. -/
def nesting (depth : Nat) : List Char → Option Nat
  | [] => some depth
  | c :: rest =>
      if c = '"' ∨ c = '\x60' ∨ c = '\'' then none
      else if c = '(' then nesting (depth + 1) rest
      else if c = ')' then if depth = 0 then none else nesting (depth - 1) rest
      else nesting depth rest

/-- Names stand between double quotes or grave accents. -/
def QuotesNames (rules : Quoting) : Prop :=
  rules.name = '"' ∨ rules.name = '\x60'

theorem QuotesNames.opens_eq_false (hq : rules.QuotesNames) {c : Char}
    (hc : ¬ (c = '"' ∨ c = '\x60' ∨ c = '\'')) : rules.opens c = false := by
  simp only [not_or] at hc
  rcases hq with h | h <;> simp [opens, h, hc]

theorem scan_of_nesting (hq : rules.QuotesNames) {text : List Char} {k l : Nat}
    (h : nesting k text = some l) (n : Nat) {s : Scan} (hs : rules.Outside (n + k) s) :
    ∃ t, rules.scan s text = some t ∧ rules.Outside (n + l) t := by
  induction text generalizing k s with
  | nil =>
    cases h
    exact ⟨s, rfl, hs⟩
  | cons c rest ih =>
    rw [nesting] at h
    split at h
    · cases h
    · rename_i hc
      have hread := hs.read_eq c
      rw [readOutside, hq.opens_eq_false hc] at hread
      simp only [Bool.false_eq_true, if_false] at hread
      split at h
      · rw [if_pos ‹_›] at hread
        rw [scan_cons hread]
        exact ih h ⟨.inl rfl, by simp; omega⟩
      · rw [if_neg ‹_›] at hread
        split at h
        · rw [if_pos ‹_›] at hread
          split at h
          · cases h
          · rw [if_neg (by omega)] at hread
            rw [scan_cons hread]
            exact ih h ⟨.inl rfl, by simp; omega⟩
        · rw [if_neg ‹_›] at hread
          rw [scan_cons hread]
          exact ih h ⟨.inl rfl, rfl⟩

theorem nests_of_nesting (hq : rules.QuotesNames) {text : String} {k l : Nat}
    (h : nesting k text.toList = some l) : rules.Nests k l text :=
  fun n _ hs => scan_of_nesting hq h n hs

theorem neutral_of_nesting (hq : rules.QuotesNames) {text : String}
    (h : nesting 0 text.toList = some 0) : rules.Neutral text :=
  nests_of_nesting hq h

/-- Parentheses around a text. -/
theorem Nests.parens (hq : rules.QuotesNames) {w : String} (h : rules.Neutral w) :
    rules.Neutral ("(" ++ w ++ ")") :=
  ((nests_of_nesting hq (by decide)).append (h.lift 1)).append (nests_of_nesting hq (by decide))

theorem Nests.intercalate {separator : String} {entries : List String}
    (hs : rules.Neutral separator) (h : ∀ w ∈ entries, rules.Neutral w) :
    rules.Neutral (separator.intercalate entries) := by
  induction entries with
  | nil => exact Nests.empty
  | cons w rest ih =>
    rw [List.forall_mem_cons] at h
    cases rest with
    | nil => simpa using h.1
    | cons next rest =>
      rw [String.intercalate_cons_cons]
      exact (h.1.append hs).append (ih h.2)

theorem balanced_of_neutral {text : String} (h : rules.Neutral text) :
    rules.balanced text = true := by
  obtain ⟨⟨place, depth⟩, hscan, hplace, hdepth⟩ := h 0 ⟨.outside, 0⟩ ⟨.inl rfl, rfl⟩
  dsimp only at hdepth hplace
  rw [balanced, hscan, hdepth]
  rcases hplace with rfl | ⟨quote, rfl, -⟩ <;> rfl

end Quoting

end SqlCompose
