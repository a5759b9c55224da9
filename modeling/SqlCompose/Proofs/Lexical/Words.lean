import SqlCompose.Proofs.Lexical.Literal
import SqlCompose.Proofs.Lexical.Token

/-!
# Words

The words of a text: outside quoted tokens a blank ends a word, and a comma or a parenthesis is a
word of its own. A quoted token belongs to the word around it, whatever characters it holds. A
`Solid` text is read as a part of one word. `Reads` says which words a piece of text has where a
word ends behind it, so pieces may be put together.
-/

namespace SqlCompose

namespace Quoting

/-- Whether a character stands between words. -/
def separates (c : Char) : Bool := c == ' ' || c == ',' || c == '(' || c == ')'

/-- The word that a separator is. A blank is none. -/
def mark (c : Char) : List String := if c = ' ' then [] else [String.singleton c]

/-- The word that ends here, if one has begun. -/
def finish (begun : List Char) : List String :=
  if begun.isEmpty then [] else [String.ofList begun]

/-- Where a character leads. A parenthesis without its opening one is read like any other. -/
def next (rules : Quoting) (s : Scan) (c : Char) : Scan := (rules.read s c).getD ⟨.outside, 0⟩

/-- The words of a text from a place in it on, where a word may have begun. -/
def cut (rules : Quoting) (s : Scan) (begun : List Char) : List Char → List String
  | [] => finish begun
  | c :: rest =>
      let t := rules.next s c
      if separates c && t.place == .outside then finish begun ++ mark c ++ rules.cut t [] rest
      else rules.cut t (begun ++ [c]) rest

/-- The words of a text. -/
def words (rules : Quoting) (text : String) : List String :=
  rules.cut ⟨.outside, 0⟩ [] text.toList

/-- The scan stands outside quoted tokens. -/
def Free (rules : Quoting) (s : Scan) : Prop := ∃ depth, rules.Outside depth s

/-- A text that is read as a part of one word. -/
def Solid (rules : Quoting) (text : String) : Prop :=
  ∀ s, rules.Free s → ∃ t, rules.Free t ∧ ∀ begun rest,
    rules.cut s begun (text.toList ++ rest) = rules.cut t (begun ++ text.toList) rest

/-- A text that starts with a separator. -/
def Breaks (text : List Char) : Prop := ∃ c rest, text = c :: rest ∧ separates c

/-- A text with its words, where a word ends behind it. -/
def Reads (rules : Quoting) (text : String) (ws : List String) : Prop :=
  ∀ s, rules.Free s → ∃ t, rules.Free t ∧ ∀ rest, rest = [] ∨ Breaks rest →
    rules.cut s [] (text.toList ++ rest) = ws ++ rules.cut t [] rest

/-- A text with its words, whatever follows it. -/
def Closes (rules : Quoting) (text : String) (ws : List String) : Prop :=
  ∀ s, rules.Free s → ∃ t, rules.Free t ∧ ∀ rest,
    rules.cut s [] (text.toList ++ rest) = ws ++ rules.cut t [] rest

variable {rules : Quoting}

theorem Free.of_place {s : Scan} (h : s.place = .outside) : rules.Free s := ⟨s.depth, .inl h, rfl⟩

/-- Outside quoted tokens a character that opens none leads outside. -/
theorem Free.next_place {s : Scan} (h : rules.Free s) {c : Char} (hc : rules.opens c = false) :
    (rules.next s c).place = .outside := by
  obtain ⟨depth, hs⟩ := h
  rw [next, hs.read_eq, readOutside, hc]
  simp only [Bool.false_eq_true, if_false]
  split
  · rfl
  · split
    · split <;> rfl
    · rfl

theorem cut_of_ne_outside {s t : Scan} {c : Char} (hread : rules.read s c = some t)
    (ht : t.place ≠ .outside) (begun rest : List Char) :
    rules.cut s begun (c :: rest) = rules.cut t (begun ++ [c]) rest := by
  rw [cut, next, hread, Option.getD_some]
  exact if_neg (by simp [ht])

/-- Inside a quoted token no word ends. -/
theorem Within.cut_eq {s t : Scan} {text : List Char} (h : rules.Within s text t)
    (begun rest : List Char) :
    rules.cut s begun (text ++ rest) = rules.cut t (begun ++ text) rest := by
  induction h generalizing begun with
  | nil => rw [List.nil_append, List.append_nil]
  | @cons s t u c text hread hplace _ ih =>
    rw [List.cons_append, cut_of_ne_outside hread hplace, ih, List.append_assoc,
      List.singleton_append]

namespace Solid

theorem append {u w : String} (hu : rules.Solid u) (hw : rules.Solid w) :
    rules.Solid (u ++ w) := by
  intro s hs
  obtain ⟨t, ht, hcutu⟩ := hu s hs
  obtain ⟨r, hr, hcutw⟩ := hw t ht
  refine ⟨r, hr, fun begun rest => ?_⟩
  rw [String.toList_append, List.append_assoc, hcutu, hcutw, List.append_assoc]

/-- A quoted token. -/
theorem of_within {text : String} (quote : Char) (ho : rules.opens quote)
    (h : ∀ depth s, rules.Outside depth s → rules.Within s text.toList ⟨.closed quote, depth⟩) :
    rules.Solid text := by
  rintro s ⟨depth, hs⟩
  exact ⟨⟨.closed quote, depth⟩, ⟨depth, .inr ⟨quote, rfl, ho⟩, rfl⟩, (h depth s hs).cut_eq⟩

end Solid

/-- The characters around which no quoted token begins. -/
def isPlain (c : Char) : Bool := c != '"' && c != '\x60' && c != '\''

/-- The words of a text without quoted tokens, and the word begun at its end. -/
def plainWords (begun : List Char) : List Char → List String × List Char
  | [] => ([], begun)
  | c :: rest =>
      if separates c then
        let more := plainWords [] rest
        (finish begun ++ mark c ++ more.1, more.2)
      else plainWords (begun ++ [c]) rest

theorem QuotesNames.opens_of_isPlain (hq : rules.QuotesNames) {c : Char} (hc : isPlain c) :
    rules.opens c = false := by
  refine hq.opens_eq_false ?_
  rintro (rfl | rfl | rfl) <;> exact absurd hc (by decide)

theorem isPlain_of_separates {c : Char} (hc : separates c) : isPlain c := by
  simp only [separates, Bool.or_eq_true, beq_iff_eq] at hc
  rcases hc with ((rfl | rfl) | rfl) | rfl <;> decide

section Reading

variable (hq : rules.QuotesNames)

include hq

/-- A separator outside quoted tokens ends the word before it. -/
theorem cut_separator {s : Scan} (hs : rules.Free s) {c : Char} (hc : separates c)
    (begun rest : List Char) :
    rules.cut s begun (c :: rest) =
      finish begun ++ mark c ++ rules.cut (rules.next s c) [] rest := by
  have hplace := hs.next_place (hq.opens_of_isPlain (isPlain_of_separates hc))
  rw [cut]
  simp only [hc, hplace, beq_self_eq_true, Bool.and_self, if_true]

/-- Where a word ends, it is the one begun. -/
theorem cut_finish {s : Scan} (hs : rules.Free s) {rest : List Char}
    (hrest : rest = [] ∨ Breaks rest) (begun : List Char) :
    rules.cut s begun rest = finish begun ++ rules.cut s [] rest := by
  rcases hrest with rfl | ⟨c, rest, rfl, hc⟩
  · rw [cut, cut, finish, finish]
    exact (List.append_nil _).symm
  · rw [cut_separator hq hs hc, cut_separator hq hs hc, List.append_assoc]
    rfl

theorem cut_plain {text : List Char} (htext : ∀ c ∈ text, isPlain c) {s : Scan}
    (hs : rules.Free s) :
    ∃ t, rules.Free t ∧ ∀ begun rest, rules.cut s begun (text ++ rest) =
      (plainWords begun text).1 ++ rules.cut t (plainWords begun text).2 rest := by
  induction text generalizing s with
  | nil => exact ⟨s, hs, fun begun rest => rfl⟩
  | cons c text ih =>
    rw [List.forall_mem_cons] at htext
    have hplace := hs.next_place (hq.opens_of_isPlain htext.1)
    obtain ⟨t, ht, hcut⟩ := ih htext.2 (.of_place hplace)
    refine ⟨t, ht, fun begun rest => ?_⟩
    rw [plainWords]
    by_cases hc : separates c
    · rw [if_pos hc, List.cons_append, cut_separator hq hs hc, hcut, ← List.append_assoc]
    · rw [if_neg hc, List.cons_append, cut, ← hcut]
      exact if_neg (by simp [hc])

theorem closes_of_plain {text : String} {ws : List String} (htext : text.toList.all isPlain)
    (h : plainWords [] text.toList = (ws, [])) : rules.Closes text ws := by
  intro s hs
  obtain ⟨t, ht, hcut⟩ := cut_plain hq (List.all_eq_true.mp htext) hs
  refine ⟨t, ht, fun rest => ?_⟩
  rw [hcut, h]

theorem solid_of_plain {text : String}
    (htext : text.toList.all fun c => isPlain c && !separates c) : rules.Solid text := by
  simp only [List.all_eq_true, Bool.and_eq_true, Bool.not_eq_true'] at htext
  have hwords : ∀ begun, plainWords begun text.toList = ([], begun ++ text.toList) := by
    generalize text.toList = cs at htext
    induction cs with
    | nil => exact fun begun => by rw [plainWords, List.append_nil]
    | cons c cs ih =>
      rw [List.forall_mem_cons] at htext
      intro begun
      rw [plainWords, htext.1.2, if_neg Bool.false_ne_true, ih htext.2, List.append_assoc,
        List.singleton_append]
  intro s hs
  obtain ⟨t, ht, hcut⟩ := cut_plain hq (fun c hc => (htext c hc).1) hs
  refine ⟨t, ht, fun begun rest => ?_⟩
  rw [hcut, hwords, List.nil_append]

theorem Solid.reads {text : String} (h : rules.Solid text) (hne : text ≠ "") :
    rules.Reads text [text] := by
  intro s hs
  obtain ⟨t, ht, hcut⟩ := h s hs
  refine ⟨t, ht, fun rest hrest => ?_⟩
  have hlist : text.toList.isEmpty = false := by
    rw [← Bool.not_eq_true, List.isEmpty_iff, String.toList_eq_nil_iff]
    exact hne
  rw [hcut, cut_finish hq ht hrest, List.nil_append, finish, hlist, String.ofList_toList]
  rfl

end Reading

theorem words_of_reads {text : String} {ws : List String} (h : rules.Reads text ws) :
    rules.words text = ws := by
  obtain ⟨t, ht, hcut⟩ := h ⟨.outside, 0⟩ (.of_place rfl)
  have hend := hcut [] (.inl rfl)
  rw [List.append_nil, cut] at hend
  rw [words, hend]
  exact List.append_nil ws

theorem Breaks.append {text : List Char} (h : Breaks text) (rest : List Char) :
    Breaks (text ++ rest) := by
  obtain ⟨c, more, rfl, hc⟩ := h
  exact ⟨c, more ++ rest, rfl, hc⟩

namespace Closes

variable {u w : String} {us ws : List String}

theorem reads (h : rules.Closes u us) : rules.Reads u us := by
  intro s hs
  obtain ⟨t, ht, hcut⟩ := h s hs
  exact ⟨t, ht, fun rest _ => hcut rest⟩

theorem append_reads (hu : rules.Closes u us) (hw : rules.Reads w ws) :
    rules.Reads (u ++ w) (us ++ ws) := by
  intro s hs
  obtain ⟨t, ht, hcutu⟩ := hu s hs
  obtain ⟨r, hr, hcutw⟩ := hw t ht
  refine ⟨r, hr, fun rest hrest => ?_⟩
  rw [String.toList_append, List.append_assoc, hcutu, hcutw rest hrest, List.append_assoc]

end Closes

namespace Reads

variable {u w : String} {us ws : List String}

theorem append_closes (hu : rules.Reads u us) (hw : rules.Closes w ws)
    (hbreaks : Breaks w.toList) : rules.Closes (u ++ w) (us ++ ws) := by
  intro s hs
  obtain ⟨t, ht, hcutu⟩ := hu s hs
  obtain ⟨r, hr, hcutw⟩ := hw t ht
  refine ⟨r, hr, fun rest => ?_⟩
  rw [String.toList_append, List.append_assoc, hcutu _ (.inr (hbreaks.append rest)), hcutw,
    List.append_assoc]

theorem empty : rules.Reads "" [] := fun s hs => ⟨s, hs, fun _ _ => rfl⟩

/-- Texts with a separator between each two of them. -/
theorem intercalate {separator : String} {between : List String}
    (hs : rules.Closes separator between) (hbreaks : Breaks separator.toList)
    {texts : List String} {wss : List (List String)}
    (h : List.Forall₂ rules.Reads texts wss) :
    rules.Reads (separator.intercalate texts) (between.intercalate wss) := by
  induction h with
  | nil => exact empty
  | @cons text ws texts wss htext hrest ih =>
    cases hrest with
    | nil =>
      rw [String.intercalate_singleton, List.intercalate_singleton]
      exact htext
    | @cons next nws texts wss hnext hrest =>
      rw [String.intercalate_cons_cons, List.intercalate_cons_cons]
      exact (htext.append_closes hs hbreaks).append_reads ih

end Reads

/-- Whether a word that starts with a character is neither a connector nor a parenthesis. -/
def beginsOperand (c : Char) : Bool := c != 'A' && c != 'O' && c != '(' && c != ')'

/-- A text that is read as one word, and as an operand of a comparison. -/
structure OperandWord (rules : Quoting) (text : String) : Prop where
  solid : rules.Solid text
  begins : ∃ c rest, text.toList = c :: rest ∧ beginsOperand c

namespace OperandWord

variable {text : String}

theorem append (h : rules.OperandWord text) {more : String} (hmore : rules.Solid more) :
    rules.OperandWord (text ++ more) := by
  obtain ⟨c, rest, htext, hc⟩ := h.begins
  refine ⟨h.solid.append hmore, c, rest ++ more.toList, ?_, hc⟩
  rw [String.toList_append, htext, List.cons_append]

theorem ne (h : rules.OperandWord text) {keyword : String}
    (hkeyword : keyword.toList.head?.all (!beginsOperand ·)) : text ≠ keyword := by
  rintro rfl
  obtain ⟨c, rest, htext, hc⟩ := h.begins
  rw [htext] at hkeyword
  simp [hc] at hkeyword

theorem reads (hq : rules.QuotesNames) (h : rules.OperandWord text) : rules.Reads text [text] := by
  refine h.solid.reads hq ?_
  rintro rfl
  obtain ⟨c, rest, htext, -⟩ := h.begins
  cases htext

theorem of_plain (hq : rules.QuotesNames)
    (htext : text.toList.all fun c => isPlain c && !separates c)
    (hbegins : text.toList.head?.any beginsOperand) : rules.OperandWord text := by
  refine ⟨solid_of_plain hq htext, ?_⟩
  cases hlist : text.toList with
  | nil => simp [hlist] at hbegins
  | cons c rest => exact ⟨c, rest, rfl, by simpa [hlist] using hbegins⟩

theorem of_numeric (hq : rules.QuotesNames) (hne : text ≠ "") (h : Numeric text) :
    rules.OperandWord text := by
  have hbad : ['"', '\x60', '\'', ' ', ',', '(', ')', 'A', 'O'].all (!isNumeric ·) := by decide
  have hkinds : ∀ c ∈ text.toList, (isPlain c && !separates c) ∧ beginsOperand c := by
    intro c hc
    have hnot : ∀ bad ∈ ['"', '\x60', '\'', ' ', ',', '(', ')', 'A', 'O'], c ≠ bad := by
      rintro bad hmem rfl
      have hnumeric := List.all_eq_true.mp hbad c hmem
      rw [h c hc] at hnumeric
      cases hnumeric
    simp only [List.forall_mem_cons] at hnot
    simp [isPlain, separates, beginsOperand, hnot]
  refine of_plain hq (List.all_eq_true.mpr fun c hc => (hkinds c hc).1) ?_
  cases hlist : text.toList with
  | nil => exact absurd (String.toList_eq_nil_iff.mp hlist) hne
  | cons c rest => exact (hkinds c (by simp [hlist])).2

/-- A token between quotes, whatever characters it holds. -/
theorem of_quoted {quote : Char} {special : Char → Bool} (ho : rules.opens quote)
    (hquote : beginsOperand quote) (hs : ∀ c, special c ↔ c = quote ∨ rules.escapes quote c)
    (body : List Char) :
    rules.OperandWord (String.ofList (quote :: Lexicon.double special body ++ [quote])) := by
  refine ⟨Solid.of_within quote ho fun depth s hout => ?_, quote, _, String.toList_ofList, hquote⟩
  have hopen : rules.read s quote = some ⟨.inside quote, depth⟩ := by
    rw [hout.read_eq, readOutside, if_pos ho]
  rw [String.toList_ofList, List.cons_append]
  exact .cons hopen Place.noConfusion (within_double hs depth body)

end OperandWord

end Quoting

namespace Lexicon

open Quoting

variable {lexicon : Lexicon}

theorem operandWord_identifier (hq : lexicon.quoting.QuotesNames) (name : String) :
    lexicon.quoting.OperandWord (lexicon.identifier name) := by
  have hname : lexicon.identifierQuote = '"' ∨ lexicon.identifierQuote = '\x60' := hq
  refine .of_quoted (by simp [quoting, opens]) ?_ (fun c => ?_) name.toList
  · rcases hname with h | h <;> rw [h] <;> decide
  · have hne : lexicon.identifierQuote ≠ '\'' := by
      rcases hname with h | h <;> rw [h] <;> decide
    simp [quoting, escapes, hne]

theorem operandWord_text (s : String) : lexicon.quoting.OperandWord (lexicon.text s) := by
  refine .of_quoted (by simp [quoting, opens]) (by decide) (fun c => ?_) s.toList
  simp [quoting, escapes]

end Lexicon

namespace Lexicon.ReadBy

open Quoting

variable {lexicon : Lexicon} {rules : Quoting}

/-- The bytes of binary data stand between quotes, and where the backslash escapes it marks none. -/
theorem operandWord_bytes (h : lexicon.ReadBy rules) (data : List UInt8) :
    rules.OperandWord (lexicon.scalar (.bytes data)) := by
  have hopen : ∀ {rules : Quoting} {depth : Nat} {s : Scan}, rules.Outside depth s →
      rules.read s '\'' = some ⟨.inside '\'', depth⟩ := by
    intro rules depth s hs
    rw [hs.read_eq, readOutside, if_pos (by simp [opens])]
  have hmarked : ∀ rules : Quoting, rules.QuotesNames →
      rules.OperandWord ("X'" ++ String.ofList (Lexicon.hex data ++ ['\''])) := by
    intro rules hq
    have hmark : rules.OperandWord "X" := .of_plain hq (by decide) (by decide)
    have htoken : rules.Solid ("'" ++ String.ofList (Lexicon.hex data ++ ['\''])) := by
      refine Solid.of_within '\'' (by simp [opens]) fun depth s hs => ?_
      have hlist : ("'" ++ String.ofList (Lexicon.hex data ++ ['\''])).toList =
          '\'' :: (Lexicon.hex data ++ ['\'']) := by
        rw [String.toList_append, String.toList_ofList, String.toList_ofList]
        rfl
      rw [hlist]
      exact .cons (hopen hs) Place.noConfusion (within_hex depth data)
    have hsplit : "X'" = "X" ++ "'" := rfl
    rw [hsplit, String.append_assoc]
    exact hmark.append htoken
  cases h with
  | sqlite => exact hmarked _ (.inl rfl)
  | mysql => exact hmarked _ (.inr rfl)
  | postgresql =>
    have hlist : (Dialect.postgresqlLexicon.scalar (.bytes data)).toList =
        '\'' :: '\\' :: 'x' :: (Lexicon.hex data ++ ['\'']) := by
      rw [Lexicon.scalar, String.toList_append, String.toList_ofList]
      rfl
    refine ⟨Solid.of_within '\'' rfl fun depth s hs => ?_, '\'', _, hlist, by decide⟩
    rw [hlist]
    exact .cons (hopen hs) Place.noConfusion (.cons rfl Place.noConfusion
      (.cons rfl Place.noConfusion (within_hex depth data)))

theorem operandWord_scalar (h : lexicon.ReadBy rules) {v : Value} (hv : v.isList = false) :
    rules.OperandWord (lexicon.scalar v) := by
  have hq : rules.QuotesNames := h.quoting_eq ▸ h.quotesNames
  have hnull : rules.OperandWord "NULL" := .of_plain hq (by decide) (by decide)
  cases v with
  | null => exact hnull
  | bool b => cases h <;> cases b <;> exact .of_plain hq (by decide) (by decide)
  | int n => exact .of_numeric hq (int_text_ne_empty _) (Numeric.int _)
  | double x =>
    rw [Lexicon.scalar]
    split
    · exact .of_numeric hq (NumberLayout.write_ne_empty Nat.one_pos x) (Numeric.write _ ‹_›)
    · exact hnull
  | string s => exact h.quoting_eq ▸ Lexicon.operandWord_text s
  | bytes data => exact h.operandWord_bytes data
  | list values => cases hv

end Lexicon.ReadBy

namespace Dialect.ReadBy

open Quoting

variable {d : Dialect} {rules : Quoting}

/-- A value that is no list is one word, coerced or not. -/
theorem operandWord_value (h : d.ReadBy rules) {v : Value} (hv : v.isList = false)
    (type : Option ColumnType) : rules.OperandWord (d.value v type) := by
  obtain ⟨lexicon, hspelled, hlexicon⟩ := h.exists_lexicon
  rw [hspelled.value_eq, Lexicon.value_of_isList_eq_false hv]
  refine hlexicon.operandWord_scalar ?_
  cases hw : type.bind (·.coerce v) with
  | none => exact hv
  | some w =>
    obtain ⟨t, -, hcoerce⟩ := Option.bind_eq_some_iff.mp hw
    exact ColumnType.coerce_isList hv hcoerce

/-- A quoted column is one word, whatever characters its names hold. -/
theorem operandWord_column (h : d.ReadBy rules) {column : Sql.Column} (hc : column.quoted) :
    rules.OperandWord (column.text d) := by
  obtain ⟨lexicon, hspelled, hlexicon⟩ := h.exists_lexicon
  have hname : ∀ name, rules.OperandWord (d.identifier name) := by
    intro name
    rw [hspelled.identifier_eq, ← hlexicon.quoting_eq]
    exact Lexicon.operandWord_identifier hlexicon.quotesNames name
  have hpoint : rules.Solid "." := solid_of_plain h.quotesNames (by decide)
  rw [Sql.Column.text, if_pos hc]
  exact ((hname _).append hpoint).append (hname _).solid

end Dialect.ReadBy

end SqlCompose
