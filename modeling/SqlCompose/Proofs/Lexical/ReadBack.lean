import SqlCompose.Proofs.Lexical.Token

/-!
# Reading tokens back

A database reads a quoted token up to the quote that closes it. There it takes a doubled quote for
one and, where the backslash escapes, a backslash and the next character for what they stand for.
Names, strings and binary data are read back as they were given, and the reader stops where the
token was written to end, provided the quote does not follow at once: it would go on with the token.
Nothing is said about the length of a token or the characters that a database refuses altogether,
and string tokens that it joins because only white space stands between them are read one by one.
-/

namespace SqlCompose

namespace Quoting

/-- What a backslash and the character behind it stand for in a string. The wildcards of patterns
keep their backslash, and other characters stand for themselves. -/
def escapedText : Char → List Char
  | '0' => ['\x00']
  | 'b' => ['\x08']
  | 'n' => ['\n']
  | 'r' => ['\r']
  | 't' => ['\t']
  | 'Z' => ['\x1a']
  | '%' => ['\\', '%']
  | '_' => ['\\', '_']
  | c => [c]

/-- Puts characters in front of the content of a token. -/
def prepend (text : List Char) (token : List Char × List Char) : List Char × List Char :=
  (text ++ token.1, token.2)

/-- The content of a token whose opening quote was read, and what follows its closing quote. -/
def tokenBody? (rules : Quoting) (quote : Char) : List Char → Option (List Char × List Char)
  | [] => none
  | [c] => if c = quote then some ([], []) else none
  | c :: next :: rest =>
      if c = quote then
        if next = quote then (rules.tokenBody? quote rest).map (prepend [quote])
        else some ([], next :: rest)
      else if rules.escapes quote c then
        (rules.tokenBody? quote rest).map (prepend (escapedText next))
      else (rules.tokenBody? quote (next :: rest)).map (prepend [c])

/-- The content of the token that a quote opens at the start of a text, and the rest of the text. -/
def token? (rules : Quoting) (quote : Char) (text : String) : Option (String × String) :=
  match text.toList with
  | [] => none
  | c :: rest =>
      if c = quote then
        (rules.tokenBody? quote rest).map (Prod.map String.ofList String.ofList)
      else none

variable {rules : Quoting} {quote : Char}

theorem tokenBody?_close {rest : List Char} (h : rest.head? ≠ some quote) :
    rules.tokenBody? quote (quote :: rest) = some ([], rest) := by
  cases rest with
  | nil => rw [tokenBody?, if_pos rfl]
  | cons next rest =>
    have hnext : next ≠ quote := fun he => h (congrArg some he)
    rw [tokenBody?, if_pos rfl, if_neg hnext]

theorem tokenBody?_quote (rest : List Char) :
    rules.tokenBody? quote (quote :: quote :: rest) =
      (rules.tokenBody? quote rest).map (prepend [quote]) := by
  rw [tokenBody?, if_pos rfl, if_pos rfl]

theorem tokenBody?_escaped {c : Char} (hc : c ≠ quote) (he : rules.escapes quote c)
    (next : Char) (rest : List Char) :
    rules.tokenBody? quote (c :: next :: rest) =
      (rules.tokenBody? quote rest).map (prepend (escapedText next)) := by
  rw [tokenBody?, if_neg hc, if_pos he]

theorem tokenBody?_plain {c : Char} (hc : c ≠ quote) (he : ¬ rules.escapes quote c)
    (rest : List Char) :
    rules.tokenBody? quote (c :: rest) = (rules.tokenBody? quote rest).map (prepend [c]) := by
  cases rest with
  | nil =>
    rw [tokenBody?, tokenBody?, if_neg hc]
    rfl
  | cons next rest => rw [tokenBody?, if_neg hc, if_neg he]

/-- A character that escapes is the backslash, and behind itself it stands for itself. -/
theorem escapedText_of_escapes {c : Char} (h : rules.escapes quote c) : escapedText c = [c] := by
  simp only [escapes, Bool.and_eq_true, beq_iff_eq] at h
  rw [h.2]
  rfl

/-- Doubling is undone, whatever characters the content has. -/
theorem tokenBody?_double {special : Char → Bool}
    (hs : ∀ c, special c ↔ c = quote ∨ rules.escapes quote c) (body : List Char)
    {rest : List Char} (hrest : rest.head? ≠ some quote) :
    rules.tokenBody? quote (Lexicon.double special body ++ quote :: rest) = some (body, rest) := by
  induction body with
  | nil => exact tokenBody?_close hrest
  | cons c body ih =>
    rw [Lexicon.double]
    by_cases hc : c = quote
    · rw [if_pos ((hs c).mpr (.inl hc)), hc, List.cons_append, List.cons_append, tokenBody?_quote,
        ih]
      rfl
    · by_cases he : rules.escapes quote c
      · rw [if_pos ((hs c).mpr (.inr he)), List.cons_append, List.cons_append,
          tokenBody?_escaped hc he, ih, escapedText_of_escapes he]
        rfl
      · rw [if_neg (by simp [hs, hc, he]), List.cons_append, tokenBody?_plain hc he, ih]
        rfl

theorem token?_quoted {special : Char → Bool}
    (hs : ∀ c, special c ↔ c = quote ∨ rules.escapes quote c) (content : String)
    {rest : String} (hrest : rest.toList.head? ≠ some quote) :
    rules.token? quote
      (String.ofList (quote :: Lexicon.double special content.toList ++ [quote]) ++ rest) =
        some (content, rest) := by
  rw [token?, String.toList_append, String.toList_ofList, List.cons_append, List.cons_append,
    List.append_assoc, List.singleton_append]
  dsimp only
  rw [if_pos rfl, tokenBody?_double hs content.toList hrest]
  simp

example : token? ⟨'"', false⟩ '\'' "'it\\'s'" = some ("it\\", "s'") := by decide
example : token? ⟨'\x60', true⟩ '\'' "'it\\'s \\\"\\%'" = some ("it's \"\\%", "") := by decide

end Quoting

namespace Lexicon

theorem hexValue?_hexDigit {n : Nat} (h : n < 16) :
    hexValue? (hexDigit n).toLower = some n := by
  have hdigit : ∀ k < 16, hexValue? (hexDigit k).toLower = some k := by decide
  exact hdigit n h

theorem unhex?_hex (data : List UInt8) : unhex? ((hex data).map Char.toLower) = some data := by
  induction data with
  | nil => rfl
  | cons b rest ih =>
    have hb : b.toNat < 256 := b.toNat_lt
    have hbyte : b.toNat / 16 * 16 + b.toNat % 16 = b.toNat := by omega
    rw [hex, List.map_cons, List.map_cons, unhex?, hexValue?_hexDigit (by omega),
      hexValue?_hexDigit (by omega), ih]
    simp only [Option.bind_eq_bind, Option.bind_some, hbyte, UInt8.ofNat_toNat, Option.pure_def]

/-- Hexadecimal digits are neither quotes nor backslashes. -/
theorem hex_plain (data : List UInt8) : ∀ c ∈ hex data, c ≠ '\'' ∧ c ≠ '\\' := by
  have hdigit : ∀ k < 16, hexDigit k ≠ '\'' ∧ hexDigit k ≠ '\\' := by decide
  induction data with
  | nil => exact nofun
  | cons b rest ih =>
    have hb : b.toNat < 256 := b.toNat_lt
    rw [hex, List.forall_mem_cons, List.forall_mem_cons]
    exact ⟨hdigit _ (by omega), hdigit _ (by omega), ih⟩

theorem double_eq_self {special : Char → Bool} {body : List Char}
    (h : ∀ c ∈ body, special c = false) : double special body = body := by
  induction body with
  | nil => rfl
  | cons c body ih =>
    rw [List.forall_mem_cons] at h
    rw [double, h.1, if_neg Bool.false_ne_true, ih h.2]

end Lexicon

/-- How a database takes binary data. -/
inductive BytesForm
  /-- As hexadecimal digits between quotes, behind an `X`. -/
  | marked
  /-- As a string of a backslash, an `x` and hexadecimal digits. -/
  | prefixed
deriving DecidableEq, Repr

/-- What stands before the digits. -/
def BytesForm.opening : BytesForm → String
  | .marked => "X'"
  | .prefixed => "'\\x"

namespace Quoting

/-- The bytes of hexadecimal digits in either case, and what follows the token that holds them. -/
def digits? (digits : List Char) (rest : String) : Option (List UInt8 × String) :=
  (Lexicon.unhex? (digits.map Char.toLower)).map (·, rest)

/-- The binary data at the start of a text, and the rest of the text. -/
def bytes? (rules : Quoting) (form : BytesForm) (text : String) :
    Option (List UInt8 × String) :=
  match form with
  | .marked =>
      match text.toList with
      | 'X' :: quoted => do
          let (content, rest) ← rules.token? '\'' (String.ofList quoted)
          digits? content.toList rest
      | _ => none
  | .prefixed => do
      let (content, rest) ← rules.token? '\'' text
      match content.toList with
      | '\\' :: 'x' :: digits => digits? digits rest
      | _ => none

variable {rules : Quoting}

theorem digits?_hex (data : List UInt8) (rest : String) :
    digits? (Lexicon.hex data) rest = some (data, rest) := by
  rw [digits?, Lexicon.unhex?_hex, Option.map_some]

/-- A string without quotes and escapes stands between quotes as it is. -/
theorem token?_plain {content : List Char}
    (h : ∀ c ∈ content, c ≠ '\'' ∧ rules.escapes '\'' c = false) {rest : String}
    (hrest : rest.toList.head? ≠ some '\'') :
    rules.token? '\'' (String.ofList ('\'' :: content ++ ['\'']) ++ rest) =
      some (String.ofList content, rest) := by
  have hspecial : ∀ c, (c == '\'' || rules.escapes '\'' c) = true ↔
      c = '\'' ∨ rules.escapes '\'' c = true := by simp
  have hread := token?_quoted hspecial (String.ofList content) hrest
  rwa [String.toList_ofList, Lexicon.double_eq_self (by simpa using h)] at hread

/-- Binary data is read back. Where a string holds it, its backslash must not escape. -/
theorem bytes?_hex {form : BytesForm} (hform : form = .prefixed → rules.backslash = false)
    (data : List UInt8) {rest : String} (hrest : rest.toList.head? ≠ some '\'') :
    rules.bytes? form
      (form.opening ++ String.ofList (Lexicon.hex data ++ ['\'']) ++ rest) = some (data, rest) := by
  have hplain : ∀ c ∈ Lexicon.hex data, c ≠ '\'' ∧ rules.escapes '\'' c = false := by
    intro c hc
    obtain ⟨hquote, hbackslash⟩ := Lexicon.hex_plain data c hc
    exact ⟨hquote, by simp [escapes, hbackslash]⟩
  cases form with
  | marked =>
    have htext :
        (BytesForm.marked.opening ++ String.ofList (Lexicon.hex data ++ ['\'']) ++ rest).toList =
          'X' :: (String.ofList ('\'' :: Lexicon.hex data ++ ['\'']) ++ rest).toList := by
      simp [BytesForm.opening]
    rw [bytes?, htext]
    simp only [String.ofList_toList, token?_plain hplain hrest, Option.bind_eq_bind,
      Option.bind_some, String.toList_ofList, digits?_hex]
  | prefixed =>
    have htext : BytesForm.prefixed.opening ++ String.ofList (Lexicon.hex data ++ ['\'']) ++ rest =
        String.ofList ('\'' :: ('\\' :: 'x' :: Lexicon.hex data) ++ ['\'']) ++ rest := by
      simp [BytesForm.opening, ← String.toList_inj]
    have hcontent : ∀ c ∈ '\\' :: 'x' :: Lexicon.hex data,
        c ≠ '\'' ∧ rules.escapes '\'' c = false := by
      rw [List.forall_mem_cons, List.forall_mem_cons]
      exact ⟨⟨by decide, by simp [escapes, hform rfl]⟩, ⟨by decide, by simp [escapes]⟩,
        hplain⟩
    rw [bytes?, htext]
    simp only [token?_plain hcontent hrest, Option.bind_eq_bind, Option.bind_some,
      String.toList_ofList, digits?_hex]

end Quoting

/-- How the databases of the built-in dialects take binary data. -/
inductive Dialect.TakesBytes : Dialect → BytesForm → Prop
  | postgresql : TakesBytes .postgresql .prefixed
  | sqlite : TakesBytes .sqlite .marked
  | mysql : TakesBytes .mysql .marked

namespace Dialect

variable {d : Dialect} {rules : Quoting} {form : BytesForm}

theorem token?_identifier (h : d.ReadBy rules) (name : String) {rest : String}
    (hrest : rest.toList.head? ≠ some rules.name) :
    rules.token? rules.name (d.identifier name ++ rest) = some (name, rest) := by
  obtain ⟨lexicon, hspelled, hlexicon⟩ := h.exists_lexicon
  obtain rfl := hlexicon.quoting_eq
  have hne : lexicon.identifierQuote ≠ '\'' := by
    rcases h.quotesNames with hq | hq <;> exact fun he => absurd (hq.symm.trans he) (by decide)
  rw [hspelled.identifier_eq]
  exact Quoting.token?_quoted (by simp [Lexicon.quoting, Quoting.escapes, hne]) name hrest

theorem token?_string (h : d.ReadBy rules) (s : String) {rest : String}
    (hrest : rest.toList.head? ≠ some '\'') :
    rules.token? '\'' (d.value (.string s) none ++ rest) = some (s, rest) := by
  obtain ⟨lexicon, hspelled, hlexicon⟩ := h.exists_lexicon
  obtain rfl := hlexicon.quoting_eq
  rw [hspelled.value_eq]
  exact Quoting.token?_quoted (by simp [Lexicon.quoting, Quoting.escapes]) s hrest

theorem bytes?_value (h : d.ReadBy rules) (hform : d.TakesBytes form) (data : List UInt8)
    {rest : String} (hrest : rest.toList.head? ≠ some '\'') :
    rules.bytes? form (d.value (.bytes data) none ++ rest) = some (data, rest) := by
  have hname : form = .prefixed → d.name = "PostgreSQL" := by
    cases hform with
    | postgresql => exact fun _ => rfl
    | sqlite | mysql => exact nofun
  have hbackslash : form = .prefixed → rules.backslash = false := by
    intro hprefixed
    cases h with
    | postgresql | sqlite => rfl
    | mysql => exact absurd (hname hprefixed) (by decide)
  have hvalue : d.value (.bytes data) none =
      form.opening ++ String.ofList (Lexicon.hex data ++ ['\'']) := by
    cases hform <;> rfl
  rw [hvalue]
  exact Quoting.bytes?_hex hbackslash data hrest

end Dialect

/-- What a reader reads back was written for one thing only. -/
theorem injective_of_reads {α : Type} {write : α → String}
    {read : String → Option (α × String)} (h : ∀ a, read (write a ++ "") = some (a, "")) :
    Function.Injective write := by
  intro a b hab
  have ha := h a
  rw [hab, h b] at ha
  exact (congrArg Prod.fst (Option.some.inj ha)).symm

/-- A database reads names, strings and binary data back as they were given, and goes on with what
follows them, unless that begins with the quote just read. So two different ones are never written
alike. -/
theorem escaping_read_back {d : Dialect} {rules : Quoting} {form : BytesForm}
    (h : d.ReadBy rules) (hform : d.TakesBytes form) :
    (∀ name rest : String, rest.toList.head? ≠ some rules.name →
        rules.token? rules.name (d.identifier name ++ rest) = some (name, rest)) ∧
      (∀ s rest : String, rest.toList.head? ≠ some '\'' →
        rules.token? '\'' (d.value (.string s) none ++ rest) = some (s, rest)) ∧
      (∀ (data : List UInt8) (rest : String), rest.toList.head? ≠ some '\'' →
        rules.bytes? form (d.value (.bytes data) none ++ rest) = some (data, rest)) ∧
      Function.Injective d.identifier ∧
      Function.Injective (fun s => d.value (.string s) none) ∧
      Function.Injective (fun data => d.value (.bytes data) none) := by
  refine ⟨fun name _ => Dialect.token?_identifier h name, fun s _ => Dialect.token?_string h s,
    fun data _ => Dialect.bytes?_value h hform data, ?_, ?_, ?_⟩
  · exact injective_of_reads fun name => Dialect.token?_identifier h name nofun
  · exact injective_of_reads fun s => Dialect.token?_string h s nofun
  · exact injective_of_reads fun data => Dialect.bytes?_value h hform data nofun

theorem escaping_read_back_hostile :
    Dialect.mysql.ReadBy ⟨'\x60', true⟩ ∧ Dialect.mysql.TakesBytes .marked ∧
      Dialect.mysql.identifier "a\x60; --" = "\x60a\x60\x60; --\x60" ∧
      Quoting.token? ⟨'\x60', true⟩ '\x60' ("\x60a\x60\x60; --\x60" ++ ".b") =
        some ("a\x60; --", ".b") ∧
      Dialect.mysql.value (.string "\\' OR '\\") none = "'\\\\'' OR ''\\\\'" ∧
      Quoting.token? ⟨'\x60', true⟩ '\'' ("'\\\\'' OR ''\\\\'" ++ "\"'") =
        some ("\\' OR '\\", "\"'") ∧
      Dialect.mysql.value (.bytes [0, 39, 92, 255]) none = "X'00275cff'" ∧
      Quoting.bytes? ⟨'\x60', true⟩ .marked ("X'00275cff'" ++ ")") =
        some ([0, 39, 92, 255], ")") ∧
      Dialect.mysql.identifier "a" ≠ Dialect.mysql.identifier "a\x60" := by
  obtain ⟨hname, hstring, hbytes, hinjective, -, -⟩ :=
    escaping_read_back Dialect.ReadBy.mysql Dialect.TakesBytes.mysql
  exact ⟨.mysql, .mysql, by decide, hname "a\x60; --" ".b" (by decide), by decide,
    hstring "\\' OR '\\" "\"'" (by decide), by decide,
    hbytes [0, 39, 92, 255] ")" (by decide), hinjective.ne (by decide)⟩

end SqlCompose
