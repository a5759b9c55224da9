import SqlCompose.Text.Character

/-!
# Rules on word endings

A rule describes an ending by a pattern and says what to put in its place. The pattern has to
reach the end of the word; of the places where it could start the leftmost counts. Groups of a
pattern are numbered in the order in which they took part in the match, so a replacement may
name a group that is not there, which then stands for nothing.
-/

namespace SqlCompose.Naming

/-- What the end of a word looks like. -/
inductive Pattern
  | empty
  | letter (c : Char)
  | oneOf (letters : List Char)
  | noneOf (letters : List Char)
  | nonAscii
  | seq (first second : Pattern)
  | either (first second : Pattern)
  | group (body : Pattern)
deriving Repr

namespace Pattern

instance : Append Pattern := ⟨seq⟩

/-- The letters of a text, one after the other. -/
def text (s : String) : Pattern :=
  s.toList.foldr (fun c rest => seq (letter c) rest) empty

/-- One of several texts; an earlier one is preferred. -/
def anyOf : List String → Pattern
  | [] => oneOf []
  | [s] => text s
  | s :: rest => either (text s) (anyOf rest)

/-- A pattern or nothing. -/
def optional (body : Pattern) : Pattern := either body empty

/-- Whether a character counts as a letter of a pattern. The long s is a spelling of s. -/
def sameLetter (expected actual : Char) : Bool :=
  actual == expected || (expected == 's' && actual == 'ſ')

/-- All ways to match the start of a text, the preferred ones first: the texts of the groups that
took part, and the rest. -/
def matchStart : Pattern → List Char → List (List (List Char) × List Char)
  | empty, s => [([], s)]
  | letter e, c :: rest => if sameLetter e c then [([], rest)] else []
  | oneOf es, c :: rest => if es.any (sameLetter · c) then [([], rest)] else []
  | noneOf es, c :: rest => if es.any (sameLetter · c) then [] else [([], rest)]
  | nonAscii, c :: rest => if c.toNat < 128 || c == 'ſ' then [] else [([], rest)]
  | letter _, [] | oneOf _, [] | noneOf _, [] | nonAscii, [] => []
  | seq p q, s =>
      (p.matchStart s).flatMap fun (groups, rest) =>
        (q.matchStart rest).map fun (more, tail) => (groups ++ more, tail)
  | either p q, s => p.matchStart s ++ q.matchStart s
  | group p, s =>
      (p.matchStart s).map fun (groups, rest) =>
        (s.take (s.length - rest.length) :: groups, rest)

/-- The groups of the preferred match of a whole text. -/
def matchAll? (p : Pattern) (s : List Char) : Option (List (List Char)) :=
  ((p.matchStart s).find? fun found => found.2.isEmpty).map Prod.fst

end Pattern

/-- Where an ending may start. -/
inductive Anchor
  | anywhere
  | wordStart
  | textStart
deriving DecidableEq, Repr

/-- Whether an ending may start after a text, given by its last character. -/
def Anchor.allows : Anchor → Option Char → Bool
  | .anywhere, _ => true
  | .wordStart, before => before.all fun c => !Character.isWordPart c
  | .textStart, before => before.isNone

/-- A part of a replacement. -/
inductive Piece
  | text (s : String)
  | whole
  | group (n : Nat)
deriving Repr

/-- An ending and its replacement. -/
structure Rule where
  pattern : Pattern
  replacement : List Piece
  anchor : Anchor := .anywhere
deriving Repr

namespace Rule

/-- Writes a replacement out; a group that took no part stands for nothing. -/
def fill (ending : List Char) (groups : List (List Char)) : List Piece → List Char
  | [] => []
  | .text s :: rest => s.toList ++ fill ending groups rest
  | .whole :: rest => ending ++ fill ending groups rest
  | .group n :: rest => (groups[n - 1]?).getD [] ++ fill ending groups rest

/-- Replaces the leftmost ending that fits, `before` being the last character passed over. -/
def applyAfter (rule : Rule) (before : Option Char) (s : List Char) : Option (List Char) :=
  let here :=
    if rule.anchor.allows before then
      (rule.pattern.matchAll? s).map fun groups => fill s groups rule.replacement
    else none
  match here, s with
  | some result, _ => some result
  | none, [] => none
  | none, c :: rest => (rule.applyAfter (some c) rest).map (c :: ·)

/-- Replaces the ending of a word, if it fits. -/
def replaceIn? (rule : Rule) (word : List Char) : Option (List Char) := rule.applyAfter none word

end Rule

end SqlCompose.Naming
