import SqlCompose.Number.Shortest

/-!
# Numbers in text

An integer is an optional sign and decimal digits. A double also takes a point, a power of ten
and the words for infinity and NaN in any letter case. Nothing may stand before or after.
-/

namespace SqlCompose.Number

/-- The sign of a numeral and the rest; `true` is a minus. -/
def splitSign : List Char → Bool × List Char
  | '-' :: rest => (true, rest)
  | '+' :: rest => (false, rest)
  | s => (false, s)

/-- The number that decimal digits stand for, added to the digits read before. -/
def digitsValue (sofar : Nat) : List Char → Nat
  | [] => sofar
  | c :: rest => digitsValue (10 * sofar + (c.toNat - 48)) rest

/-- The number that a text of at least one decimal digit stands for. -/
def readDigits (s : List Char) : Option Nat :=
  if s.isEmpty || !s.all Char.isDigit then none else some (digitsValue 0 s)

/-- Reads an integer of 64 bits. -/
def readInt64 (s : List Char) : Option Int64 :=
  let (negative, digits) := splitSign s
  match readDigits digits with
  | none => none
  | some n =>
      let value : Int := if negative then -n else n
      if Int64.minValue.toInt ≤ value ∧ value ≤ Int64.maxValue.toInt then some (Int64.ofInt value)
      else none

/-- Reads the power of ten of a numeral, which may be missing. -/
def readPower : List Char → Option Int
  | [] => some 0
  | c :: rest =>
      if c = 'e' ∨ c = 'E' then
        let (negative, digits) := splitSign rest
        (readDigits digits).map fun n => if negative then -n else n
      else none

/-- Reads digits with an optional point and power of ten. -/
def readDecimal (s : List Char) : Option Decimal :=
  let whole := s.takeWhile Char.isDigit
  let (fraction, rest) : List Char × List Char :=
    match s.dropWhile Char.isDigit with
    | '.' :: after => (after.takeWhile Char.isDigit, after.dropWhile Char.isDigit)
    | rest => ([], rest)
  if whole.isEmpty && fraction.isEmpty then none
  else
    (readPower rest).map fun power => ⟨digitsValue 0 (whole ++ fraction), power - fraction.length⟩

/-- Reads a double, rounded to nearest. -/
def readDouble (s : List Char) : Option Binary64 :=
  let (negative, body) := splitSign s
  match readDecimal body with
  | some d => some (.ofDecimal negative d)
  | none =>
      let word := String.ofList (body.map Char.toLower)
      if word = "inf" ∨ word = "infinity" then some (.infinity negative)
      else if word = "nan" then some .nan
      else none

example : readInt64 "-9223372036854775808".toList = some (Int64.ofInt (-2 ^ 63)) := by decide +kernel
example : readInt64 "9223372036854775808".toList = none := by decide +kernel
example : readInt64 "+".toList = none ∧ readInt64 "1_0".toList = none := by decide +kernel
example : readDouble ".5e1".toList = some (.ofInt 5) ∧ readDouble "5.".toList = some (.ofInt 5) := by
  decide +kernel
example : readDouble ".".toList = none ∧ readDouble "1e".toList = none := by decide +kernel
example : readDouble "-iNf".toList = some (.infinity true) := by decide +kernel

end SqlCompose.Number
