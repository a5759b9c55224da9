import SqlCompose.Text.Unicode.Letters
import SqlCompose.Text.Unicode.Case

/-!
# Character classes

Classes and case map of all Unicode characters. Names of models and fields may hold any of
them.
-/

namespace SqlCompose.Character

/-- Whether ascending inclusive ranges hold a code point. -/
def inRanges (code : Nat) : List (Nat × Nat) → Bool
  | [] => false
  | (first, last) :: rest =>
      if code < first then false else code ≤ last || inRanges code rest

/-- Whether ascending runs hold a code point. -/
def inRuns (code : Nat) : List (Nat × Nat × Nat) → Bool
  | [] => false
  | (first, last, step) :: rest =>
      if code < first then false
      else (code ≤ last && (code - first) % step == 0) || inRuns code rest

/-- What the first run that holds a code point adds to it. -/
def shiftIn (code : Nat) : List (Nat × Nat × Nat × Int) → Int
  | [] => 0
  | (first, last, step, shift) :: rest =>
      if code < first then 0
      else if code ≤ last && (code - first) % step == 0 then shift
      else shiftIn code rest

/-- Letters and numbers. -/
def isAlphanumeric (c : Char) : Bool := inRanges c.toNat Unicode.alphanumericRanges

def isUppercase (c : Char) : Bool := inRuns c.toNat Unicode.uppercaseRuns

def isLowercase (c : Char) : Bool := inRuns c.toNat Unicode.lowercaseRuns

/-- The lower-case form of a character. A capital I with a dot keeps the dot as a combining
character; every other character has a form of one character. -/
def lower (c : Char) : List Char :=
  if c.toNat = 0x130 then ['i', Char.ofNat 0x307]
  else [Char.ofNat (c.toNat + shiftIn c.toNat Unicode.lowerRuns).toNat]

/-- White space, Unicode 15. -/
def blankRanges : List (Nat × Nat) := [
  (0x9, 0xD), (0x20, 0x20), (0x85, 0x85), (0xA0, 0xA0), (0x1680, 0x1680), (0x2000, 0x200A),
  (0x2028, 0x2029), (0x202F, 0x202F), (0x205F, 0x205F), (0x3000, 0x3000)]

/-- White space. -/
def isBlank (c : Char) : Bool := inRanges c.toNat blankRanges

/-- The characters of a snake-cased name that count as parts of a word: letters, decimal digits,
the underscore and the combining dot of a lowered capital I. -/
def isWordPart (c : Char) : Bool :=
  c == '_' || c.toNat == 0x307 ||
    (isAlphanumeric c && !inRanges c.toNat Unicode.otherNumberRanges)

/-- Removes white space from both ends of a text. -/
def trim (s : List Char) : List Char :=
  ((s.dropWhile isBlank).reverse.dropWhile isBlank).reverse

example : isUppercase 'É' && isLowercase 'ß' && isAlphanumeric '前' && !isAlphanumeric '_' := by
  decide +kernel
example : lower 'É' = ['é'] ∧ lower 'A' = ['a'] ∧ lower 'ß' = ['ß'] ∧ lower 'Σ' = ['σ'] := by
  decide +kernel
example : trim [' ', '1', ' ', '2', '\t'] = ['1', ' ', '2'] := by decide

end SqlCompose.Character
