import SqlCompose.Number.Binary64

/-!
# Decimal digits of a double

`ofDecimal` reads a decimal number as the nearest double. `shortest` goes back: among the
decimal numbers that are read as a given double it takes one with the fewest digits, and of
those the nearest. A grid of `n`-digit numbers meets the interval of such decimals only if one
of the two grid points around the double does, so testing two points for each `n` is enough.
-/

namespace SqlCompose

/-- A decimal number: `coefficient` times ten to the `exponent`. -/
structure Decimal where
  coefficient : Nat
  exponent : Int
deriving DecidableEq, Repr

namespace Decimal

/-- The number of decimal digits of a positive number. -/
def width (n : Nat) : Nat := (Nat.toDigits 10 n).length

/-- The `k` with `10 ^ (k - 1) ≤ num / den < 10 ^ k`. -/
def magnitudeOf (num den : Nat) : Int :=
  let shift : Int := (width num : Int) - width den
  let reached :=
    if 0 ≤ shift then den * Nat.pow 10 shift.toNat ≤ num else den ≤ num * Nat.pow 10 (-shift).toNat
  if reached then shift + 1 else shift

end Decimal

namespace Binary64

/-- The double nearest to a signed decimal number. Exponents far outside the range of doubles
are decided before the power of ten is computed. -/
def ofDecimal (negative : Bool) (d : Decimal) : Binary64 :=
  if d.coefficient = 0 then zero negative
  else
    let magnitude := (Decimal.width d.coefficient : Int) + d.exponent
    if 310 < magnitude then infinity negative
    else if magnitude < -330 then zero negative
    else if 0 ≤ d.exponent then ofRatio negative (d.coefficient * Nat.pow 10 d.exponent.toNat) 1
    else ofRatio negative d.coefficient (Nat.pow 10 (-d.exponent).toNat)

/-- The decimals that round to a double: bounds over one denominator, the double itself in
between, and whether the bounds belong to it. -/
structure RoundingInterval where
  lower : Nat
  value : Nat
  upper : Nat
  denominator : Nat
  closed : Bool

/-- Half a unit in the last place to each side; below a power of two the lower half is a
quarter. A tie at a bound goes to the even significand. -/
def roundingInterval (x : Binary64) : RoundingInterval :=
  let m := x.significand
  let below := if m = Nat.pow 2 52 ∧ 1 < x.biasedExponent then 1 else 2
  let e := x.exponent - 2
  let scale := if 0 ≤ e then Nat.pow 2 e.toNat else 1
  { lower := (4 * m - below) * scale
    value := 4 * m * scale
    upper := (4 * m + 2) * scale
    denominator := if 0 ≤ e then 1 else Nat.pow 2 (-e).toNat
    closed := m % 2 == 0 }

/-- The nearest point of the interval on the grid of multiples of `10 ^ unit`, if there is one;
a tie goes up. -/
def RoundingInterval.gridPoint? (r : RoundingInterval) (unit : Int) : Option Nat :=
  let step := if 0 ≤ unit then r.denominator * Nat.pow 10 unit.toNat else r.denominator
  let scale := if 0 ≤ unit then 1 else Nat.pow 10 (-unit).toNat
  let inside (c : Nat) : Bool :=
    if r.closed then r.lower * scale ≤ c * step && c * step ≤ r.upper * scale
    else r.lower * scale < c * step && c * step < r.upper * scale
  let c := r.value * scale / step
  match inside c, inside (c + 1) with
  | false, false => none
  | true, false => some c
  | false, true => some (c + 1)
  | true, true => some (if 2 * (r.value * scale) < (2 * c + 1) * step then c else c + 1)

/-- The fewest decimal digits that are read back as a finite number. -/
def shortest (x : Binary64) : Decimal :=
  if x.significand = 0 then ⟨0, 0⟩
  else
    let interval := x.roundingInterval
    let top := Decimal.magnitudeOf interval.value interval.denominator
    let found := (List.range' 1 17).findSome? fun (n : Nat) =>
      (interval.gridPoint? (top - n)).map fun c =>
        if c = Nat.pow 10 n then ⟨1, top⟩ else ⟨c, top - n⟩
    found.getD ⟨interval.value / interval.denominator, 0⟩

example : ofDecimal false ⟨1, -1⟩ = ⟨0x3FB999999999999A⟩ := by decide
example : shortest ⟨0x3FB999999999999A⟩ = ⟨1, -1⟩ := by decide +kernel
example : shortest ⟨1⟩ = ⟨5, -324⟩ := by decide +kernel
example : shortest ⟨0x7FEFFFFFFFFFFFFF⟩ = ⟨17976931348623157, 292⟩ := by decide +kernel
example : shortest (ofInt 9007199254740993) = ⟨9007199254740992, 0⟩ := by decide +kernel
example : shortest (ofDecimal false ⟨9995, 20⟩) = ⟨9995, 20⟩ := by decide +kernel

end Binary64

end SqlCompose
