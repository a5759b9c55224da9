/-!
# Double precision numbers

A double is its 64-bit pattern. A finite pattern stands for an integer significand times a
power of two, so everything below is arithmetic on naturals and integers. `ofRatio` rounds a
quotient to the nearest double, a tie to the even one. Equality is that of numbers: a NaN
differs from itself and the two zeros agree.
-/

namespace SqlCompose

/-- A double precision number, by its bit pattern: sign, eleven exponent bits, fraction. -/
structure Binary64 where
  bits : UInt64
deriving DecidableEq, Repr, Inhabited

namespace Binary64

/-- The sign bit. -/
def negative (x : Binary64) : Bool := Nat.pow 2 63 ≤ x.bits.toNat

/-- The eleven exponent bits. -/
def biasedExponent (x : Binary64) : Nat := x.bits.toNat / Nat.pow 2 52 % 2048

/-- The fifty-two fraction bits. -/
def fraction (x : Binary64) : Nat := x.bits.toNat % Nat.pow 2 52

/-- Neither infinite nor a NaN. -/
def isFinite (x : Binary64) : Bool := x.biasedExponent != 2047

/-- Not a number. -/
def isNaN (x : Binary64) : Bool := x.biasedExponent == 2047 && x.fraction != 0

/-- The integer significand of a finite number; normal numbers have a leading one. -/
def significand (x : Binary64) : Nat :=
  if x.biasedExponent = 0 then x.fraction else Nat.pow 2 52 + x.fraction

/-- The power of two that scales the significand of a finite number. -/
def exponent (x : Binary64) : Int :=
  (if x.biasedExponent = 0 then 1 else x.biasedExponent : Nat) - 1075

/-- Either of the two zeros. -/
def isZero (x : Binary64) : Bool := x.biasedExponent == 0 && x.fraction == 0

/-- Equality as numbers. -/
def equal (x y : Binary64) : Bool :=
  !x.isNaN && !y.isNaN && (x.bits == y.bits || (x.isZero && y.isZero))

/-- Puts a sign on the bits of a magnitude. -/
def ofMagnitude (negative : Bool) (magnitude : Nat) : Binary64 :=
  ⟨UInt64.ofNat ((if negative then Nat.pow 2 63 else 0) + magnitude)⟩

/-- The bits of infinity, the first magnitude past the finite ones. -/
def infiniteMagnitude : Nat := 2047 * Nat.pow 2 52

def zero (negative : Bool) : Binary64 := ofMagnitude negative 0

def infinity (negative : Bool) : Binary64 := ofMagnitude negative infiniteMagnitude

def nan : Binary64 := ofMagnitude false (infiniteMagnitude + Nat.pow 2 51)

/-- The quotient `num / den` as a pair of a numerator and a denominator after division by
`2 ^ e`. -/
def scaleDown (num den : Nat) (e : Int) : Nat × Nat :=
  if 0 ≤ e then (num, den * Nat.pow 2 e.toNat) else (num * Nat.pow 2 (-e).toNat, den)

/-- The nearest integer to a quotient, a tie going to the even one. -/
def roundHalfEven (num den : Nat) : Nat :=
  let quotient := num / den
  let twice := 2 * (num % den)
  if twice < den then quotient
  else if den < twice then quotient + 1
  else quotient + quotient % 2

/-- The exponent that leaves 53 bits before the binary point of a quotient, but never less than
that of the smallest double. -/
def exponentFor (num den : Nat) : Int :=
  let guess : Int := (Nat.log2 num : Int) - Nat.log2 den - 53
  let scaled := scaleDown num den guess
  let exact := if Nat.pow 2 53 * scaled.2 ≤ scaled.1 then guess + 1 else guess
  max exact (-1074)

/-- The magnitude bits of the double nearest to `num / den`. A significand rounded up to
`2 ^ 53` carries into the exponent bits, as it should. -/
def nearestMagnitude (num den : Nat) : Nat :=
  if num = 0 then 0
  else
    let e := exponentFor num den
    let scaled := scaleDown num den e
    let bits := (e + 1074) * Nat.pow 2 52 + roundHalfEven scaled.1 scaled.2
    min bits.toNat infiniteMagnitude

/-- The double nearest to a signed quotient, ties to even, overflow to infinity. -/
def ofRatio (negative : Bool) (num den : Nat) : Binary64 :=
  ofMagnitude negative (nearestMagnitude num den)

/-- The double nearest to an integer. -/
def ofInt (n : Int) : Binary64 := ofRatio (n < 0) n.natAbs 1

/-- A finite number without a fractional part. -/
def isIntegral (x : Binary64) : Bool :=
  x.isFinite && (0 ≤ x.exponent || x.significand % Nat.pow 2 (-x.exponent).toNat == 0)

/-- The integer part of a finite number, towards zero. -/
def truncate (x : Binary64) : Int :=
  let magnitude : Nat :=
    if 0 ≤ x.exponent then x.significand * Nat.pow 2 x.exponent.toNat
    else x.significand / Nat.pow 2 (-x.exponent).toNat
  if x.negative then -magnitude else magnitude

/-- The integer part of a finite number, clamped to the 64-bit integers. -/
def toInt64Clamped (x : Binary64) : Int64 :=
  Int64.ofInt (max Int64.minValue.toInt (min x.truncate Int64.maxValue.toInt))

theorem equal_comm (x y : Binary64) : x.equal y = y.equal x := by
  unfold equal
  rw [Bool.and_comm (!x.isNaN), Bool.and_comm x.isZero, BEq.comm]

theorem equal_self (x : Binary64) : x.equal x = !x.isNaN := by
  simp [equal]

example : ofRatio false 1 10 = ⟨0x3FB999999999999A⟩ := by decide
example : ofInt (2 ^ 53 + 1) = ofInt (2 ^ 53) := by decide
example : ofInt (2 ^ 53 + 3) = ofInt (2 ^ 53 + 4) := by decide
example : ofRatio false 1 (2 ^ 1075) = zero false := by decide +kernel
example : ofRatio true 1 (2 ^ 1074) = ⟨0x8000000000000001⟩ := by decide +kernel
example : ofRatio false (2 ^ 1024) 1 = infinity false := by decide +kernel
example : (ofInt (-7)).toInt64Clamped = -7 := by decide

end Binary64

end SqlCompose
