import Mathlib.Data.List.Chain
import SqlCompose.Query.Operator

/-!
# The grammar of a filter

A filter is a chain of operands with a connector between each two of them, and an operand is an
atom or a chain in parentheses, with or without NOT. Atoms are the texts of conditions: nothing
looks inside them, so a text is a list of pieces, the characters of the grammar and whole atoms.
A lexer and a shift-reduce parser read such a text. They accept exactly what the grammar derives,
and each text has one derivation.
-/

namespace SqlCompose.Reading

mutual

/-- Operands with connectors between them. There is at least one. -/
inductive Chain
  | one (operand : Factor)
  | link (first : Factor) (connector : Connector) (rest : Chain)

/-- An operand. -/
inductive Factor
  | atom (text : String)
  | group (negated : Bool) (body : Chain)

end

/-- The chain of a first operand and further ones, each behind its connector. -/
def Chain.of (first : Factor) : List (Connector × Factor) → Chain
  | [] => .one first
  | (connector, next) :: others => .link first connector (.of next others)

/-- The chain of the operands of a level, if there are any. Nothing stands before the first one, so
its connector is forgotten. -/
def chain? : List (Connector × Factor) → Option Chain
  | [] => none
  | (_, first) :: others => some (.of first others)

theorem chain?_eq_none_iff {level : List (Connector × Factor)} :
    chain? level = none ↔ level = [] := by
  cases level <;> simp [chain?]

/-- A piece of a text, as far as the grammar looks at it. -/
inductive Piece
  | char (c : Char)
  | atom (text : String)
deriving DecidableEq, Repr

def Piece.text : Piece → String
  | .char c => String.singleton c
  | .atom text => text

/-- The text of pieces. -/
def spell : List Piece → String
  | [] => ""
  | piece :: rest => piece.text ++ spell rest

/-- The characters of a word. -/
def word (text : String) : List Piece := text.toList.map .char

theorem spell_append (first second : List Piece) :
    spell (first ++ second) = spell first ++ spell second := by
  induction first with
  | nil => rw [List.nil_append, spell, String.empty_append]
  | cons piece rest ih => rw [List.cons_append, spell, spell, ih, String.append_assoc]

theorem toList_spell_map_char (cs : List Char) : (spell (cs.map .char)).toList = cs := by
  induction cs with
  | nil => rfl
  | cons c cs ih =>
    rw [List.map_cons, spell, String.toList_append, ih, Piece.text, String.toList_singleton]
    rfl

theorem spell_word (text : String) : spell (word text) = text :=
  String.toList_inj.mp (toList_spell_map_char text.toList)

/-- What the grammar is over. -/
inductive Token
  | atom (text : String)
  | opening (negated : Bool)
  | closing
  | connector (c : Connector)
deriving DecidableEq, Repr

def Token.pieces : Token → List Piece
  | .atom text => [.atom text]
  | .opening negated => word (if negated then "NOT (" else "(")
  | .closing => word ")"
  | .connector c => word (" " ++ c.sql ++ " ")

section Lexer

/-- The tokens of a text, if it falls into tokens. -/
def lex : List Piece → Option (List Token)
  | [] => some []
  | .atom text :: rest => (lex rest).map (.atom text :: ·)
  | .char '(' :: rest => (lex rest).map (.opening false :: ·)
  | .char 'N' :: .char 'O' :: .char 'T' :: .char ' ' :: .char '(' :: rest =>
      (lex rest).map (.opening true :: ·)
  | .char ')' :: rest => (lex rest).map (.closing :: ·)
  | .char ' ' :: .char 'A' :: .char 'N' :: .char 'D' :: .char ' ' :: rest =>
      (lex rest).map (.connector .and :: ·)
  | .char ' ' :: .char 'O' :: .char 'R' :: .char ' ' :: rest =>
      (lex rest).map (.connector .or :: ·)
  | _ => none

theorem lex_token (token : Token) (rest : List Piece) :
    lex (token.pieces ++ rest) = (lex rest).map (token :: ·) := by
  rcases token with text | (_ | _) | _ | (_ | _) <;> exact lex.eq_def _

theorem lex_flatMap (tokens : List Token) : lex (tokens.flatMap Token.pieces) = some tokens := by
  induction tokens with
  | nil => rfl
  | cons token tokens ih => rw [List.flatMap_cons, lex_token, ih, Option.map_some]

theorem eq_flatMap_of_map_eq_some {token : Token} {rest : List Piece} {tokens : List Token}
    (ih : ∀ {tokens}, lex rest = some tokens → rest = tokens.flatMap Token.pieces)
    (h : (lex rest).map (token :: ·) = some tokens) :
    token.pieces ++ rest = tokens.flatMap Token.pieces := by
  obtain ⟨others, hothers, rfl⟩ := Option.map_eq_some_iff.mp h
  rw [List.flatMap_cons, ← ih hothers]

/-- The lexer takes nothing but spelled tokens. -/
theorem lex_eq_some {pieces : List Piece} {tokens : List Token} (h : lex pieces = some tokens) :
    pieces = tokens.flatMap Token.pieces := by
  induction pieces using lex.induct generalizing tokens with
  | case1 =>
    cases h
    rfl
  | case2 text rest ih => exact eq_flatMap_of_map_eq_some ih h
  | case3 rest ih => exact eq_flatMap_of_map_eq_some ih h
  | case4 rest ih => exact eq_flatMap_of_map_eq_some ih h
  | case5 rest ih => exact eq_flatMap_of_map_eq_some ih h
  | case6 rest ih => exact eq_flatMap_of_map_eq_some ih h
  | case7 rest ih => exact eq_flatMap_of_map_eq_some ih h
  | case8 =>
    rw [lex] at h
    · cases h
    all_goals assumption

end Lexer

mutual

/-- The tokens that the grammar derives from a chain. -/
def Chain.tokens : Chain → List Token
  | .one operand => operand.tokens
  | .link first connector rest => first.tokens ++ .connector connector :: rest.tokens

/-- The tokens that the grammar derives from an operand. -/
def Factor.tokens : Factor → List Token
  | .atom text => [.atom text]
  | .group negated body => .opening negated :: (body.tokens ++ [.closing])

end

/-- The text that the grammar derives from a chain. -/
def Chain.pieces (chain : Chain) : List Piece := chain.tokens.flatMap Token.pieces

/-- The text that the grammar derives from an operand. -/
def Factor.pieces (operand : Factor) : List Piece := operand.tokens.flatMap Token.pieces

theorem spell_atom (text : String) : spell (Factor.atom text).pieces = text := by
  rw [Factor.pieces, Factor.tokens]
  exact String.append_empty

theorem spell_link (first : Factor) (c : Connector) (rest : Chain) :
    spell (Chain.link first c rest).pieces =
      spell first.pieces ++ (" " ++ c.sql ++ " ") ++ spell rest.pieces := by
  simp only [Chain.pieces, Factor.pieces, Chain.tokens, List.flatMap_append, List.flatMap_cons,
    Token.pieces, spell_append, spell_word, String.append_assoc]

theorem spell_group (negated : Bool) (body : Chain) :
    spell (Factor.group negated body).pieces =
      (if negated then "NOT (" else "(") ++ spell body.pieces ++ ")" := by
  simp only [Chain.pieces, Factor.pieces, Factor.tokens, List.flatMap_append, List.flatMap_cons,
    List.flatMap_nil, List.append_nil, Token.pieces, spell_append, spell_word, String.append_assoc]

-- A shift-reduce parser. Its recursion is on the tokens, so it needs no fuel.

/-- What the parser has read: the operands of the innermost level that have a connector behind
them, the last one first; the operand read since; and the same for the levels around, each with
the opening that interrupted it. -/
structure State where
  before : List (Factor × Connector)
  operand : Option Factor
  outer : List (Bool × List (Factor × Connector))

namespace State

/-- A chain behind operands that were read before it, the last one first. -/
def behind : List (Factor × Connector) → Chain → Chain
  | [], chain => chain
  | (operand, c) :: before, chain => behind before (.link operand c chain)

/-- The chain of a level that ends with an operand. -/
def close (before : List (Factor × Connector)) (last : Factor) : Chain := behind before (.one last)

def start : State := ⟨[], none, []⟩

-- An operand is due, or one has just been read. What fits neither is refused.
def step : State → Token → Option State
  | ⟨before, none, outer⟩, .atom text => some ⟨before, some (.atom text), outer⟩
  | ⟨before, none, outer⟩, .opening negated => some ⟨[], none, (negated, before) :: outer⟩
  | ⟨before, some operand, outer⟩, .connector c => some ⟨(operand, c) :: before, none, outer⟩
  | ⟨before, some operand, (negated, around) :: outer⟩, .closing =>
      some ⟨around, some (.group negated (close before operand)), outer⟩
  | _, _ => none

def run (s : State) (tokens : List Token) : Option State := tokens.foldlM step s

/-- The chain read, if nothing is left open. -/
def result : State → Option Chain
  | ⟨before, some last, []⟩ => some (close before last)
  | _ => none

/-- The tokens of operands with their connectors. -/
def linkedTokens : List (Factor × Connector) → List Token
  | [] => []
  | (operand, c) :: before => linkedTokens before ++ operand.tokens ++ [.connector c]

def outerTokens : List (Bool × List (Factor × Connector)) → List Token
  | [] => []
  | (negated, before) :: outer => outerTokens outer ++ linkedTokens before ++ [.opening negated]

/-- The tokens that lead to a state. -/
def tokens (s : State) : List Token :=
  outerTokens s.outer ++ linkedTokens s.before ++ (s.operand.map Factor.tokens).getD []

theorem tokens_behind (before : List (Factor × Connector)) (chain : Chain) :
    (behind before chain).tokens = linkedTokens before ++ chain.tokens := by
  induction before generalizing chain with
  | nil => rw [behind, linkedTokens, List.nil_append]
  | cons entry before ih =>
    obtain ⟨operand, c⟩ := entry
    rw [behind, ih, Chain.tokens, linkedTokens]
    simp only [List.append_assoc, List.singleton_append]

theorem tokens_close (before : List (Factor × Connector)) (last : Factor) :
    (close before last).tokens = linkedTokens before ++ last.tokens := by
  rw [close, tokens_behind, Chain.tokens]

/-- A step accounts for the token it reads. -/
theorem tokens_step {s t : State} {token : Token} (h : s.step token = some t) :
    t.tokens = s.tokens ++ [token] := by
  obtain ⟨before, operand, outer⟩ := s
  cases operand with
  | none =>
    cases token with
    | atom text =>
      cases h
      simp [tokens, Factor.tokens]
    | opening negated =>
      cases h
      simp [tokens, outerTokens, linkedTokens]
    | closing | connector => cases h
  | some operand =>
    cases token with
    | connector c =>
      cases h
      simp [tokens, linkedTokens]
    | closing =>
      cases outer with
      | nil => cases h
      | cons around outer =>
        cases h
        simp [tokens, outerTokens, Factor.tokens, tokens_close]
    | atom | opening => cases h

theorem tokens_run {s t : State} {read : List Token} (h : s.run read = some t) :
    t.tokens = s.tokens ++ read := by
  induction read generalizing s with
  | nil =>
    cases h
    rw [List.append_nil]
  | cons token read ih =>
    rw [run, List.foldlM_cons] at h
    obtain ⟨next, hnext, hrest⟩ := Option.bind_eq_some_iff.mp h
    rw [ih hrest, tokens_step hnext, List.append_assoc, List.singleton_append]

theorem run_append (s : State) (first second : List Token) :
    s.run (first ++ second) = (s.run first).bind (·.run second) :=
  List.foldlM_append

theorem run_cons (s : State) (token : Token) (rest : List Token) :
    s.run (token :: rest) = (s.step token).bind (·.run rest) :=
  List.foldlM_cons

mutual

/-- An operand is read in one piece, whatever stands around it. -/
theorem run_factor (before : List (Factor × Connector))
    (outer : List (Bool × List (Factor × Connector))) :
    ∀ operand : Factor,
      run ⟨before, none, outer⟩ operand.tokens = some ⟨before, some operand, outer⟩
  | .atom text => by
      rw [Factor.tokens]
      rfl
  | .group negated body => by
      -- The body starts a level of its own; what surrounds it waits until the parenthesis closes.
      obtain ⟨inside, last, hrun, hclose⟩ := run_chain [] ((negated, before) :: outer) body
      have hopen : step ⟨before, none, outer⟩ (.opening negated) =
          some ⟨[], none, (negated, before) :: outer⟩ := rfl
      have hbody : close inside last = body := hclose
      rw [Factor.tokens, run_cons, hopen, Option.bind_some, run_append, hrun, Option.bind_some,
        ← hbody]
      rfl

/-- A chain is read up to its last operand, and closes to itself. -/
theorem run_chain (before : List (Factor × Connector))
    (outer : List (Bool × List (Factor × Connector))) :
    ∀ chain : Chain, ∃ inside last,
      run ⟨before, none, outer⟩ chain.tokens = some ⟨inside, some last, outer⟩ ∧
        close inside last = behind before chain
  | .one operand => by
      refine ⟨before, operand, ?_, rfl⟩
      rw [Chain.tokens]
      exact run_factor before outer operand
  | .link first c rest => by
      obtain ⟨inside, last, hrun, hclose⟩ := run_chain ((first, c) :: before) outer rest
      have hlink : step ⟨before, some first, outer⟩ (.connector c) =
          some ⟨(first, c) :: before, none, outer⟩ := rfl
      refine ⟨inside, last, ?_, hclose⟩
      rw [Chain.tokens, run_append, run_factor before outer first, Option.bind_some, run_cons,
        hlink, Option.bind_some, hrun]

end

end State

/-- Reads a text as a chain. -/
def parse (pieces : List Piece) : Option Chain := do
  let tokens ← lex pieces
  let s ← State.start.run tokens
  s.result

theorem parse_pieces (chain : Chain) : parse chain.pieces = some chain := by
  obtain ⟨inside, last, hrun, hclose⟩ := State.run_chain [] [] chain
  have hstart : State.start.run chain.tokens = some ⟨inside, some last, []⟩ := hrun
  have hresult : State.result ⟨inside, some last, []⟩ = some chain := congrArg some hclose
  rw [parse, Chain.pieces, lex_flatMap]
  change (State.start.run chain.tokens >>= _) = _
  rw [hstart]
  exact hresult

theorem State.tokens_of_result {s : State} {chain : Chain} (h : s.result = some chain) :
    chain.tokens = s.tokens := by
  obtain ⟨before, _ | last, _ | ⟨around, outer⟩⟩ := s
  · cases h
  · cases h
  · cases h
    rw [tokens_close, tokens, outerTokens]
    rfl
  · cases h

/-- The parser accepts the texts that the grammar derives, each as what it is derived from. -/
theorem parse_eq_some_iff {pieces : List Piece} {chain : Chain} :
    parse pieces = some chain ↔ pieces = chain.pieces := by
  constructor
  · intro h
    obtain ⟨tokens, hlex, h⟩ := Option.bind_eq_some_iff.mp h
    obtain ⟨s, hrun, hresult⟩ := Option.bind_eq_some_iff.mp h
    have hread : s.tokens = tokens := State.tokens_run hrun
    rw [Chain.pieces, State.tokens_of_result hresult, hread]
    exact lex_eq_some hlex
  · rintro rfl
    exact parse_pieces chain

namespace Token

/-- Whether a token begins an operand. -/
def beginsOperand : Token → Bool
  | .atom _ | .opening _ => true
  | .closing | .connector _ => false

/-- Whether a token ends an operand. -/
def endsOperand : Token → Bool
  | .atom _ | .closing => true
  | .opening _ | .connector _ => false

end Token

/-- Tokens among which no connector leads, trails or follows another one or an opening, and no
parentheses are empty: after an operand comes no other one, and after anything else one has to. -/
structure Alternates (tokens : List Token) : Prop where
  first : ∃ token ∈ tokens.head?, token.beginsOperand
  last : ∃ token ∈ tokens.getLast?, token.endsOperand
  neighbours : tokens.IsChain fun left right => right.beginsOperand = !left.endsOperand

namespace Alternates

variable {first second : List Token}

theorem beginsOperand_of_mem (h : Alternates first) {token : Token} (ht : token ∈ first.head?) :
    token.beginsOperand := by
  obtain ⟨other, hother, hbegins⟩ := h.first
  obtain rfl : other = token := Option.mem_unique hother ht
  exact hbegins

theorem endsOperand_of_mem (h : Alternates first) {token : Token} (ht : token ∈ first.getLast?) :
    token.endsOperand := by
  obtain ⟨other, hother, hends⟩ := h.last
  obtain rfl : other = token := Option.mem_unique hother ht
  exact hends

theorem atom (text : String) : Alternates [.atom text] :=
  ⟨⟨.atom text, rfl, rfl⟩, ⟨.atom text, rfl, rfl⟩, .singleton _⟩

theorem link (hf : Alternates first) (hs : Alternates second) (c : Connector) :
    Alternates (first ++ .connector c :: second) := by
  obtain ⟨token, hhead, hbegins⟩ := hf.first
  obtain ⟨other, hlast, hends⟩ := hs.last
  refine ⟨⟨token, ?_, hbegins⟩, ⟨other, ?_, hends⟩, ?_⟩
  · rw [List.head?_append, Option.mem_def.mp hhead]
    rfl
  · rw [List.getLast?_append, List.getLast?_cons, Option.mem_def.mp hlast]
    rfl
  · refine hf.neighbours.append (hs.neighbours.cons fun right hright => ?_) ?_
    · exact hs.beginsOperand_of_mem hright
    · intro left hleft right hright
      obtain rfl : Token.connector c = right := Option.some.inj hright
      rw [hf.endsOperand_of_mem hleft]
      rfl

theorem enclose (h : Alternates first) (negated : Bool) :
    Alternates (.opening negated :: (first ++ [.closing])) := by
  refine ⟨⟨.opening negated, rfl, rfl⟩, ⟨.closing, ?_, rfl⟩, ?_⟩
  · rw [List.getLast?_cons, List.getLast?_append]
    rfl
  · refine (h.neighbours.append (.singleton _) ?_).cons fun right hright => ?_
    · intro left hleft right hright
      obtain rfl : Token.closing = right := Option.some.inj hright
      rw [h.endsOperand_of_mem hleft]
      rfl
    · obtain ⟨token, hhead, hbegins⟩ := h.first
      rw [List.head?_append, Option.mem_def.mp hhead] at hright
      obtain rfl : token = right := Option.some.inj hright
      exact hbegins

end Alternates

mutual

/-- Nothing dangles in what the grammar derives. -/
theorem Chain.alternates_tokens : ∀ chain : Chain, Alternates chain.tokens
  | .one operand => by
      rw [Chain.tokens]
      exact operand.alternates_tokens
  | .link first c rest => by
      rw [Chain.tokens]
      exact first.alternates_tokens.link rest.alternates_tokens c

theorem Factor.alternates_tokens : ∀ operand : Factor, Alternates operand.tokens
  | .atom text => by
      rw [Factor.tokens]
      exact .atom text
  | .group negated body => by
      rw [Factor.tokens]
      exact body.alternates_tokens.enclose negated

end

end SqlCompose.Reading
