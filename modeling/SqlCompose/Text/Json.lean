/-!
# JSON text

A reader of JSON documents. The reader is strict on the grammar; numbers are checked but not
kept, and a string with half a surrogate pair is accepted as a value without text. Keys must
have text.
-/

namespace SqlCompose

/-- A JSON document, as far as settings need it. -/
inductive Json
  | null
  | bool (b : Bool)
  | number
  /-- The text is missing when an escape names half of a surrogate pair. -/
  | string (text : Option String)
  | array (items : List Json)
  | object (members : List (String × Json))

namespace Json

def isSpace (c : Char) : Bool := c == ' ' || c == '\n' || c == '\t' || c == '\r'

/-- The text from the first character that is no white space. -/
def skipSpace (s : List Char) : List Char := s.dropWhile isSpace

/-- The value of a hexadecimal digit. -/
def hexDigit? (c : Char) : Option Nat :=
  if '0' ≤ c ∧ c ≤ '9' then some (c.toNat - 48)
  else if 'a' ≤ c ∧ c ≤ 'f' then some (c.toNat - 87)
  else if 'A' ≤ c ∧ c ≤ 'F' then some (c.toNat - 55)
  else none

/-- The code unit of four hexadecimal digits. -/
def hexUnit? (a b c d : Char) : Option Nat := do
  return (((← hexDigit? a) * 16 + (← hexDigit? b)) * 16 + (← hexDigit? c)) * 16 + (← hexDigit? d)

/-- The character of a one-letter escape. -/
def shortEscape? (c : Char) : Option Char :=
  if c = '"' ∨ c = '\\' ∨ c = '/' then some c
  else if c = 'b' then some (Char.ofNat 8)
  else if c = 'f' then some (Char.ofNat 12)
  else if c = 'n' then some '\n'
  else if c = 'r' then some '\r'
  else if c = 't' then some '\t'
  else none

/-- Characters and UTF-16 code units of a string. -/
inductive Part
  | char (c : Char)
  | unit (n : Nat)

/-- The parts of a string up to its closing quote, and the rest. -/
def readParts : List Char → Option (List Part × List Char)
  | [] => none
  | '"' :: rest => some ([], rest)
  | '\\' :: 'u' :: a :: b :: c :: d :: rest => do
      let code ← hexUnit? a b c d
      let (parts, tail) ← readParts rest
      return (.unit code :: parts, tail)
  | '\\' :: e :: rest => do
      let c ← shortEscape? e
      let (parts, tail) ← readParts rest
      return (.char c :: parts, tail)
  | c :: rest =>
      if c.toNat < 32 ∨ c = '\\' then none
      else do
        let (parts, tail) ← readParts rest
        return (.char c :: parts, tail)

/-- Joins surrogate pairs; a half without its partner makes the text missing. -/
def joinParts : List Part → Option (List Char)
  | [] => some []
  | .char c :: rest => (joinParts rest).map (c :: ·)
  | .unit high :: .unit low :: rest =>
      if 0xD800 ≤ high ∧ high < 0xDC00 then
        if 0xDC00 ≤ low ∧ low < 0xE000 then
          (joinParts rest).map
            (Char.ofNat (0x10000 + (high - 0xD800) * 0x400 + (low - 0xDC00)) :: ·)
        else none
      else if 0xDC00 ≤ high ∧ high < 0xE000 then none
      else (joinParts (.unit low :: rest)).map (Char.ofNat high :: ·)
  | .unit code :: rest =>
      if 0xD800 ≤ code ∧ code < 0xE000 then none
      else (joinParts rest).map (Char.ofNat code :: ·)

/-- Reads a string after its opening quote. -/
def readString (s : List Char) : Option (Option String × List Char) := do
  let (parts, rest) ← readParts s
  return ((joinParts parts).map String.ofList, rest)

/-- The rest after at least one digit. -/
def skipDigits : List Char → Option (List Char)
  | [] => none
  | c :: rest => if c.isDigit then some (rest.dropWhile Char.isDigit) else none

/-- The rest after a number: no leading zero, digits on both sides of a point. -/
def skipNumber (s : List Char) : Option (List Char) := do
  let unsigned := match s with
    | '-' :: rest => rest
    | other => other
  let afterWhole ← match unsigned with
    | '0' :: rest => some rest
    | other => skipDigits other
  let afterFraction ← match afterWhole with
    | '.' :: rest => skipDigits rest
    | other => some other
  match afterFraction with
  | [] => some []
  | c :: rest =>
      if c = 'e' ∨ c = 'E' then
        match rest with
        | sign :: digits => if sign = '+' ∨ sign = '-' then skipDigits digits else skipDigits rest
        | [] => none
      else some (c :: rest)

mutual

/-- Reads a document after white space. Every step spends fuel and reads a character. -/
def readValue : Nat → List Char → Option (Json × List Char)
  | 0, _ => none
  | fuel + 1, s =>
      match skipSpace s with
      | 'n' :: 'u' :: 'l' :: 'l' :: rest => some (.null, rest)
      | 't' :: 'r' :: 'u' :: 'e' :: rest => some (.bool true, rest)
      | 'f' :: 'a' :: 'l' :: 's' :: 'e' :: rest => some (.bool false, rest)
      | '"' :: rest => (readString rest).map fun (text, tail) => (.string text, tail)
      | '[' :: rest =>
          match skipSpace rest with
          | ']' :: tail => some (.array [], tail)
          | other => (readItems fuel other).map fun (items, tail) => (.array items, tail)
      | '\x7b' :: rest =>
          match skipSpace rest with
          | '\x7d' :: tail => some (.object [], tail)
          | other => (readMembers fuel other).map fun (members, tail) => (.object members, tail)
      | other => (skipNumber other).map fun tail => (.number, tail)

/-- Reads the items of an array from the first one to the closing bracket. -/
def readItems : Nat → List Char → Option (List Json × List Char)
  | 0, _ => none
  | fuel + 1, s => do
      let (item, rest) ← readValue fuel s
      match skipSpace rest with
      | ',' :: more =>
          let (items, tail) ← readItems fuel more
          return (item :: items, tail)
      | ']' :: tail => return ([item], tail)
      | _ => none

/-- Reads the members of an object from the first key to the closing brace. -/
def readMembers : Nat → List Char → Option (List (String × Json) × List Char)
  | 0, _ => none
  | fuel + 1, s => do
      let '"' :: afterQuote := skipSpace s | none
      let (some key, afterKey) ← readString afterQuote | none
      let ':' :: afterColon := skipSpace afterKey | none
      let (value, rest) ← readValue fuel afterColon
      match skipSpace rest with
      | ',' :: more =>
          let (members, tail) ← readMembers fuel more
          return ((key, value) :: members, tail)
      | '\x7d' :: tail => return ([(key, value)], tail)
      | _ => none

end

/-- Reads a text that holds one document and nothing else. -/
def parse (text : String) : Option Json := do
  let s := text.toList
  let (value, rest) ← readValue (2 * s.length + 2) s
  if (skipSpace rest).isEmpty then some value else none

end Json

end SqlCompose
