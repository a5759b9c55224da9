import SqlCompose.Dialect.Coercion

/-!
# Quoting

How a database spells names and values. A quote inside a quoted text is written twice; where the
backslash escapes, so is a backslash in a string.
-/

namespace SqlCompose

/-- Spellings of names and values. -/
structure Lexicon where
  /-- Stands around names. -/
  identifierQuote : Char
  /-- A backslash in a string literal escapes the next character. -/
  escapesBackslash : Bool
  trueText : String
  falseText : String
  /-- Stands before the hexadecimal digits of binary data; a single quote follows them. -/
  bytesOpen : String
deriving DecidableEq, Repr

namespace Lexicon

/-- Writes the characters that a property holds of twice. -/
def double (special : Char → Bool) : List Char → List Char
  | [] => []
  | c :: rest => if special c then c :: c :: double special rest else c :: double special rest

/-- A quoted name. -/
def identifier (lexicon : Lexicon) (name : String) : String :=
  let quote := lexicon.identifierQuote
  String.ofList (quote :: double (· == quote) name.toList ++ [quote])

/-- A string literal. -/
def text (lexicon : Lexicon) (s : String) : String :=
  let special (c : Char) : Bool := c == '\'' || (lexicon.escapesBackslash && c == '\\')
  String.ofList ('\'' :: double special s.toList ++ ['\''])

/-- A hexadecimal digit. -/
def hexDigit (n : Nat) : Char := if n < 10 then Char.ofNat (48 + n) else Char.ofNat (87 + n)

/-- Two hexadecimal digits for each byte. -/
def hex : List UInt8 → List Char
  | [] => []
  | b :: rest => hexDigit (b.toNat / 16) :: hexDigit (b.toNat % 16) :: hex rest

/-- The value of a hexadecimal digit. -/
def hexValue? (c : Char) : Option Nat :=
  if '0' ≤ c ∧ c ≤ '9' then some (c.toNat - 48)
  else if 'a' ≤ c ∧ c ≤ 'f' then some (c.toNat - 87)
  else none

/-- The bytes of a text of hexadecimal digits. -/
def unhex? : List Char → Option (List UInt8)
  | [] => some []
  | high :: low :: rest => do
      let byte := UInt8.ofNat ((← hexValue? high) * 16 + (← hexValue? low))
      return byte :: (← unhex? rest)
  | [_] => none

/-- The literal of a value that is no list. A double that is not finite is written as NULL. -/
def scalar (lexicon : Lexicon) : Value → String
  | .null => "NULL"
  | .bool b => if b then lexicon.trueText else lexicon.falseText
  | .int n => toString n.toInt
  | .double x => if x.isFinite then NumberLayout.exact.write x else "NULL"
  | .string s => lexicon.text s
  | .bytes data => lexicon.bytesOpen ++ String.ofList (hex data ++ ['\''])
  | .list _ => ""

mutual

/-- The literal of a value, which is first coerced to a type if one is given and it can be. -/
def value (lexicon : Lexicon) (type : Option ColumnType) : Value → String
  | .list values => "(" ++ ",".intercalate (lexicon.valueList type values) ++ ")"
  | v => lexicon.scalar ((type.bind (·.coerce v)).getD v)

/-- The literals of several values. -/
def valueList (lexicon : Lexicon) (type : Option ColumnType) : List Value → List String
  | [] => []
  | v :: rest => lexicon.value type v :: lexicon.valueList type rest

end

end Lexicon

end SqlCompose
