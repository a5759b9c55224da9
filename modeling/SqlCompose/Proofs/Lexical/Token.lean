import SqlCompose.Dialect.Builtin
import SqlCompose.Proofs.Lexical.Scan

/-!
# Tokens

Names, strings, binary data and numbers as they are written, whatever they hold: a scan that
reaches one outside quoted tokens leaves it outside quoted tokens, at the same depth.
-/

namespace SqlCompose

/-- A character of a written number. -/
def isNumeric (c : Char) : Bool := c.isDigit || c == '-' || c == '.' || c == 'e'

/-- A text of digits, signs, points and exponents. -/
def Numeric (text : String) : Prop := ∀ c ∈ text.toList, isNumeric c

instance (text : String) : Decidable (Numeric text) :=
  List.decidableBAll (fun c => isNumeric c) text.toList

namespace Numeric

theorem append {u w : String} (hu : Numeric u) (hw : Numeric w) : Numeric (u ++ w) := by
  intro c hc
  rw [String.toList_append, List.mem_append] at hc
  exact hc.elim (hu c) (hw c)

theorem of_digits {digits : List Char} (h : ∀ c ∈ digits, c.isDigit) :
    Numeric (String.ofList digits) := by
  intro c hc
  rw [String.toList_ofList] at hc
  simp [isNumeric, h c hc]

theorem isDigit_toDigits (n : Nat) : ∀ c ∈ Nat.toDigits 10 n, c.isDigit :=
  fun _ hc => Nat.isDigit_of_mem_toDigits (by decide) (by decide) hc

theorem nat (n : Nat) : Numeric (toString n) := by
  rw [Nat.toString_eq_ofList_toDigits]
  exact of_digits (isDigit_toDigits n)

theorem int (n : Int) : Numeric (toString n) := by
  rw [Int.toString_eq_repr, Int.repr_eq_if]
  have hminus : Numeric "-" := by decide
  split
  · exact nat _
  · exact hminus.append (nat _)

theorem withPoint {whole fraction : String} (hw : Numeric whole) (hf : Numeric fraction) :
    Numeric (NumberLayout.withPoint whole fraction) := by
  have hpoint : Numeric "." := by decide
  rw [NumberLayout.withPoint]
  split
  · exact hw
  · exact (hw.append hpoint).append hf

theorem isDigit_replicate (n : Nat) : ∀ c ∈ List.replicate n '0', c.isDigit := by
  intro c hc
  rw [(List.mem_replicate.mp hc).2]
  decide

theorem placed (d : Decimal) :
    Numeric (NumberLayout.placed d).1 ∧ Numeric (NumberLayout.placed d).2 := by
  rw [NumberLayout.placed]
  dsimp only
  split
  · refine ⟨of_digits fun c hc => ?_, of_digits nofun⟩
    exact (List.mem_append.mp hc).elim (isDigit_toDigits _ c) (isDigit_replicate _ c)
  · have hpadded : ∀ c ∈ List.replicate ((-d.exponent).toNat + 1 -
        (Nat.toDigits 10 d.coefficient).length) '0' ++ Nat.toDigits 10 d.coefficient,
        c.isDigit := by
      intro c hc
      exact (List.mem_append.mp hc).elim (isDigit_replicate _ c) (isDigit_toDigits _ c)
    exact ⟨of_digits fun c hc => hpadded c (List.mem_of_mem_take hc),
      of_digits fun c hc => hpadded c (List.mem_of_mem_drop hc)⟩

theorem magnitudeText (layout : NumberLayout) (d : Decimal) :
    Numeric (layout.magnitudeText d) := by
  have hexponent : Numeric "e" := by decide
  rw [NumberLayout.magnitudeText]
  dsimp only
  split
  · exact withPoint (placed d).1 ((placed d).2.append (of_digits (isDigit_replicate _)))
  · refine ((withPoint ?_ ?_).append hexponent).append (int _)
    · exact of_digits fun c hc => isDigit_toDigits _ c (List.mem_of_mem_take hc)
    · exact of_digits fun c hc => isDigit_toDigits _ c (List.mem_of_mem_drop hc)

/-- A finite double is written as a number. -/
theorem write (layout : NumberLayout) {x : Binary64} (hf : x.isFinite) :
    Numeric (layout.write x) := by
  have hminus : Numeric "-" := by decide
  have hnan : x.isNaN = false := by
    rw [Binary64.isFinite, bne_iff_ne] at hf
    simp [Binary64.isNaN, hf]
  rw [NumberLayout.write, hnan]
  simp only [Bool.false_eq_true, if_false, hf, if_true]
  split
  · exact hminus.append (magnitudeText _ _)
  · exact magnitudeText _ _

theorem nesting_eq {text : List Char} (h : ∀ c ∈ text, isNumeric c) (k : Nat) :
    Quoting.nesting k text = some k := by
  induction text with
  | nil => rfl
  | cons c rest ih =>
    rw [List.forall_mem_cons] at h
    have hc : ¬ (c = '"' ∨ c = '\x60' ∨ c = '\'' ∨ c = '(' ∨ c = ')') := by
      rintro (rfl | rfl | rfl | rfl | rfl) <;> exact absurd h.1 (by decide)
    simp only [not_or] at hc
    simp [Quoting.nesting, hc, ih h.2]

end Numeric

namespace Quoting

open Lexicon (double hex hexDigit)

variable {rules : Quoting}

theorem neutral_of_numeric (hq : rules.QuotesNames) {text : String} (h : Numeric text) :
    rules.Neutral text :=
  neutral_of_nesting hq (Numeric.nesting_eq h 0)

/-- A doubled text does not leave the token it stands in, but its closing quote does. -/
theorem within_double {quote : Char} {special : Char → Bool}
    (hs : ∀ c, special c ↔ c = quote ∨ rules.escapes quote c) (depth : Nat) (body : List Char) :
    rules.Within ⟨.inside quote, depth⟩ (double special body ++ [quote])
      ⟨.closed quote, depth⟩ := by
  have hclose : rules.read ⟨.inside quote, depth⟩ quote = some ⟨.closed quote, depth⟩ := by
    simp [read]
  induction body with
  | nil => exact .cons hclose Place.noConfusion .nil
  | cons c rest ih =>
    rw [double]
    -- A doubled quote closes the token and takes that back; a doubled backslash escapes itself.
    by_cases hc : c = quote
    · have hagain : rules.read ⟨.closed quote, depth⟩ quote = some ⟨.inside quote, depth⟩ := by
        simp [read]
      rw [if_pos ((hs c).mpr (.inl hc)), hc]
      exact .cons hclose Place.noConfusion (.cons hagain Place.noConfusion ih)
    · by_cases he : rules.escapes quote c
      · have hquote : quote = '\'' := by simp_all [escapes]
        have hescape : rules.read ⟨.inside quote, depth⟩ c = some ⟨.escaped, depth⟩ := by
          simp [read, hc, he]
        have htaken : rules.read ⟨.escaped, depth⟩ c = some ⟨.inside quote, depth⟩ := by
          rw [hquote, read]
        rw [if_pos ((hs c).mpr (.inr he))]
        exact .cons hescape Place.noConfusion (.cons htaken Place.noConfusion ih)
      · have hplain : rules.read ⟨.inside quote, depth⟩ c = some ⟨.inside quote, depth⟩ := by
          simp [read, hc, he]
        rw [if_neg (by simp [hs, hc, he])]
        exact .cons hplain Place.noConfusion ih

/-- A token between quotes is neutral. -/
theorem neutral_quoted {quote : Char} {special : Char → Bool} (ho : rules.opens quote)
    (hs : ∀ c, special c ↔ c = quote ∨ rules.escapes quote c) (body : List Char) :
    rules.Neutral (String.ofList (quote :: double special body ++ [quote])) := by
  intro n s hout
  refine ⟨⟨.closed quote, n⟩, ?_, ⟨.inr ⟨quote, rfl, ho⟩, rfl⟩⟩
  have hopen : rules.read s quote = some ⟨.inside quote, n⟩ := by
    rw [hout.read_eq, readOutside, if_pos ho]
    rfl
  rw [String.toList_ofList, List.cons_append, scan_cons hopen, (within_double hs n _).scan_eq]

theorem read_hexDigit (rules : Quoting) {n : Nat} (h : n < 16) (depth : Nat) :
    rules.read ⟨.inside '\'', depth⟩ (hexDigit n) = some ⟨.inside '\'', depth⟩ := by
  have hdigit : ∀ k < 16, hexDigit k ≠ '\'' ∧ hexDigit k ≠ '\\' := by decide
  simp [read, escapes, hdigit n h]

theorem within_hex (depth : Nat) (data : List UInt8) :
    rules.Within ⟨.inside '\'', depth⟩ (hex data ++ ['\'']) ⟨.closed '\'', depth⟩ := by
  induction data with
  | nil => exact .cons (by simp [read]) Place.noConfusion .nil
  | cons b rest ih =>
    have hb : b.toNat < 256 := b.toNat_lt
    have hhigh := read_hexDigit rules (n := b.toNat / 16) (by omega) depth
    have hlow := read_hexDigit rules (n := b.toNat % 16) (by omega) depth
    exact .cons hhigh Place.noConfusion (.cons hlow Place.noConfusion ih)

/-- Binary data opens with a marked quote. -/
theorem scan_hexOpen (hq : rules.QuotesNames) {depth : Nat} {s : Scan}
    (hs : rules.Outside depth s) : rules.scan s "X'".toList = some ⟨.inside '\'', depth⟩ := by
  have hmark : rules.read s 'X' = some ⟨.outside, depth⟩ := by
    rw [hs.read_eq, readOutside, hq.opens_eq_false (by decide)]
    rfl
  have hopen : rules.read ⟨.outside, depth⟩ '\'' = some ⟨.inside '\'', depth⟩ := by
    simp [read, readOutside, opens]
  exact (scan_cons hmark _).trans (scan_cons hopen _)

/-- Binary data opens with a quote and a backslash, which must not escape. -/
theorem scan_byteaOpen (hb : rules.backslash = false) {depth : Nat} {s : Scan}
    (hs : rules.Outside depth s) : rules.scan s "'\\x".toList = some ⟨.inside '\'', depth⟩ := by
  have hopen : rules.read s '\'' = some ⟨.inside '\'', depth⟩ := by
    rw [hs.read_eq, readOutside, if_pos (by simp [opens])]
  have hinside : ∀ c, c ≠ '\'' →
      rules.read ⟨.inside '\'', depth⟩ c = some ⟨.inside '\'', depth⟩ := by
    intro c hc
    simp [read, escapes, hb, hc]
  exact (scan_cons hopen _).trans
    ((scan_cons (hinside '\\' (by decide)) _).trans (scan_cons (hinside 'x' (by decide)) _))

end Quoting

namespace Lexicon

/-- How a database reads the tokens that the lexicon writes. -/
def quoting (lexicon : Lexicon) : Quoting := ⟨lexicon.identifierQuote, lexicon.escapesBackslash⟩

abbrev Neutral (lexicon : Lexicon) (text : String) : Prop := lexicon.quoting.Neutral text

variable {lexicon : Lexicon}

open Quoting

/-- Names and strings are neutral, whatever characters they hold. -/
theorem neutral_identifier (hq : lexicon.quoting.QuotesNames) (name : String) :
    lexicon.Neutral (lexicon.identifier name) := by
  refine neutral_quoted (by simp [quoting, opens]) (fun c => ?_) name.toList
  have hne : lexicon.identifierQuote ≠ '\'' := by
    rcases hq with h | h <;> exact fun heq => absurd (h.symm.trans heq) (by decide)
  simp [quoting, escapes, hne]

theorem neutral_text (s : String) : lexicon.Neutral (lexicon.text s) := by
  refine neutral_quoted (by simp [quoting, opens]) (fun c => ?_) s.toList
  simp [quoting, escapes]

/-- A lexicon whose words and openings a scan can tell apart. -/
structure Regular (lexicon : Lexicon) : Prop where
  quotesNames : lexicon.quoting.QuotesNames
  trueText : lexicon.Neutral lexicon.trueText
  falseText : lexicon.Neutral lexicon.falseText
  /-- What opens binary data opens a string. -/
  bytesOpen : ∀ depth s, lexicon.quoting.Outside depth s →
    lexicon.quoting.scan s lexicon.bytesOpen.toList = some ⟨.inside '\'', depth⟩

namespace Regular

theorem neutral_word (hr : lexicon.Regular) {text : String}
    (h : nesting 0 text.toList = some 0) : lexicon.Neutral text :=
  neutral_of_nesting hr.quotesNames h

theorem neutral_scalar (hr : lexicon.Regular) (v : Value) :
    lexicon.Neutral (lexicon.scalar v) := by
  cases v with
  | null =>
    rw [scalar]
    exact hr.neutral_word (by decide)
  | bool b =>
    cases b with
    | true => exact hr.trueText
    | false => exact hr.falseText
  | int n => exact neutral_of_numeric hr.quotesNames (Numeric.int _)
  | double x =>
    rw [scalar]
    split
    · exact neutral_of_numeric hr.quotesNames (Numeric.write _ ‹_›)
    · exact hr.neutral_word (by decide)
  | string s => exact neutral_text s
  | bytes data =>
    intro n s hs
    refine ⟨⟨.closed '\'', n⟩, ?_, ⟨.inr ⟨'\'', rfl, by simp [quoting, opens]⟩, rfl⟩⟩
    rw [scalar, String.toList_append, scan_append, hr.bytesOpen _ s hs, String.toList_ofList]
    exact (within_hex n data).scan_eq
  | list values => exact Nests.empty

mutual

/-- Values are neutral, lists and lists of lists included. -/
theorem neutral_value (hr : lexicon.Regular) (type : Option ColumnType) :
    ∀ v : Value, lexicon.Neutral (lexicon.value type v)
  | .list values => by
      have hcomma : lexicon.Neutral "," := hr.neutral_word (by decide)
      rw [value]
      exact .parens hr.quotesNames (.intercalate hcomma (neutral_valueList hr type values))
  | .null | .bool _ | .int _ | .double _ | .string _ | .bytes _ => by
      rw [value]
      · exact hr.neutral_scalar _
      · exact nofun

theorem neutral_valueList (hr : lexicon.Regular) (type : Option ColumnType) :
    ∀ values : List Value, ∀ w ∈ lexicon.valueList type values, lexicon.Neutral w
  | [] => nofun
  | v :: rest => by
      rw [valueList, List.forall_mem_cons]
      exact ⟨neutral_value hr type v, neutral_valueList hr type rest⟩

end

end Regular

end Lexicon

/-- A dialect that adds no text of its own to a statement but names, values and words, as its
database reads them. -/
structure Dialect.Regular (d : Dialect) (rules : Quoting) : Prop where
  quotesNames : rules.QuotesNames
  identifier : ∀ name, rules.Neutral (d.identifier name)
  value : ∀ v type, rules.Neutral (d.value v type)
  placeholder : rules.Neutral d.placeholder
  unboundedLimit : rules.Neutral d.unboundedLimit
  comparisonTail : ∀ f op, d.comparisonTail f op = none
  insertTail : ∀ m opts, d.insertTail m opts = none
  updateTail : ∀ m opts, d.updateTail m opts = none

/-- How databases read the tokens that the lexicons of the built-in dialects write. -/
inductive Lexicon.ReadBy : Lexicon → Quoting → Prop
  | postgresql : ReadBy Dialect.postgresqlLexicon ⟨'"', false⟩
  | sqlite : ReadBy Dialect.sqliteLexicon ⟨'"', false⟩
  | mysql : ReadBy Dialect.mysqlLexicon ⟨'\x60', true⟩

namespace Lexicon.ReadBy

variable {lexicon : Lexicon} {rules : Quoting}

/-- The lexicon goes by the rules of its database. -/
theorem quoting_eq (h : lexicon.ReadBy rules) : lexicon.quoting = rules := by
  cases h <;> rfl

theorem quotesNames (h : lexicon.ReadBy rules) : lexicon.quoting.QuotesNames := by
  cases h with
  | postgresql | sqlite => exact .inl rfl
  | mysql => exact .inr rfl

theorem regular (h : lexicon.ReadBy rules) : lexicon.Regular := by
  have hq := h.quotesNames
  cases h with
  | postgresql =>
    refine ⟨hq, ?_, ?_, fun _ _ hs => Quoting.scan_byteaOpen rfl hs⟩
    all_goals exact Quoting.neutral_of_nesting hq (by decide)
  | sqlite | mysql =>
    refine ⟨hq, ?_, ?_, fun _ _ hs => Quoting.scan_hexOpen hq hs⟩
    all_goals exact Quoting.neutral_of_nesting hq (by decide)

end Lexicon.ReadBy

/-- How the databases of the built-in dialects read quoted tokens. -/
inductive Dialect.ReadBy : Dialect → Quoting → Prop
  | postgresql : ReadBy .postgresql ⟨'"', false⟩
  | sqlite : ReadBy .sqlite ⟨'"', false⟩
  | mysql : ReadBy .mysql ⟨'\x60', true⟩

namespace Dialect.ReadBy

variable {d : Dialect} {rules : Quoting}

theorem exists_lexicon (h : d.ReadBy rules) :
    ∃ lexicon, d.SpelledBy lexicon ∧ lexicon.ReadBy rules := by
  cases h
  · exact ⟨_, postgresql_spelledBy, .postgresql⟩
  · exact ⟨_, sqlite_spelledBy, .sqlite⟩
  · exact ⟨_, mysql_spelledBy, .mysql⟩

theorem quotesNames (h : d.ReadBy rules) : rules.QuotesNames := by
  obtain ⟨lexicon, -, hlexicon⟩ := h.exists_lexicon
  exact hlexicon.quoting_eq ▸ hlexicon.quotesNames

theorem neutral_identifier (h : d.ReadBy rules) (name : String) :
    rules.Neutral (d.identifier name) := by
  obtain ⟨lexicon, hspelled, hlexicon⟩ := h.exists_lexicon
  rw [hspelled.identifier_eq, ← hlexicon.quoting_eq]
  exact Lexicon.neutral_identifier hlexicon.quotesNames name

theorem neutral_value (h : d.ReadBy rules) (v : Value) (type : Option ColumnType) :
    rules.Neutral (d.value v type) := by
  obtain ⟨lexicon, hspelled, hlexicon⟩ := h.exists_lexicon
  rw [hspelled.value_eq, ← hlexicon.quoting_eq]
  exact hlexicon.regular.neutral_value type v

theorem regular (h : d.ReadBy rules) : d.Regular rules where
  quotesNames := h.quotesNames
  identifier := h.neutral_identifier
  value := h.neutral_value
  placeholder := by
    have hq := h.quotesNames
    cases h <;> exact Quoting.neutral_of_nesting hq (by decide)
  unboundedLimit := by
    have hq := h.quotesNames
    cases h <;> exact Quoting.neutral_of_nesting hq (by decide)
  comparisonTail := by cases h <;> exact fun _ _ => rfl
  insertTail := by cases h <;> exact fun _ _ => rfl
  updateTail := by cases h <;> exact fun _ _ => rfl

end Dialect.ReadBy

end SqlCompose
