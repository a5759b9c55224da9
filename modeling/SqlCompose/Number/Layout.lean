import SqlCompose.Number.Shortest

/-!
# Written doubles

A double is written with its shortest digits. A `NumberLayout` says where the digits stand:
which magnitudes have a decimal point in place, which a power of ten, and how many fraction
digits appear at least. Statements use `NumberLayout.exact`, text columns
`NumberLayout.plain`.
-/

namespace SqlCompose

/-- Where the digits of a double stand. -/
structure NumberLayout where
  /-- The least power of ten of a leading digit that is written in place, if there is one. -/
  leastPlace : Option Int
  /-- The greatest power of ten of a leading digit that is written in place. -/
  greatestPlace : Option Int
  /-- Fraction digits are filled up with zeros to this number. -/
  leastFraction : Nat
deriving DecidableEq, Repr

namespace NumberLayout

/-- Numbers from `1e-4` up to `1e16` are written in place with a fraction, others with a power
of ten. -/
def exact : NumberLayout := ⟨some (-4), some 15, 1⟩

/-- Every number is written in place, and an integral one without a fraction. -/
def plain : NumberLayout := ⟨none, none, 0⟩

/-- Whether a number with this leading power is written in place. -/
def inPlace (layout : NumberLayout) (lead : Int) : Bool :=
  (layout.leastPlace.all fun least => least ≤ lead) &&
    layout.greatestPlace.all fun greatest => lead ≤ greatest

/-- The digits before and after the decimal point. -/
def placed (d : Decimal) : String × String :=
  let digits := Nat.toDigits 10 d.coefficient
  if 0 ≤ d.exponent then
    (String.ofList (digits ++ List.replicate d.exponent.toNat '0'), "")
  else
    let places := (-d.exponent).toNat
    let padded := List.replicate (places + 1 - digits.length) '0' ++ digits
    (String.ofList (padded.take (padded.length - places)),
      String.ofList (padded.drop (padded.length - places)))

/-- Joins the two parts by a point, which an empty fraction goes without. -/
def withPoint (whole fraction : String) : String :=
  if fraction = "" then whole else whole ++ "." ++ fraction

/-- The text of a number without its sign. -/
def magnitudeText (layout : NumberLayout) (d : Decimal) : String :=
  let digits := Nat.toDigits 10 d.coefficient
  let lead : Int := (digits.length : Int) - 1 + d.exponent
  if d.coefficient = 0 || layout.inPlace lead then
    let (whole, fraction) := placed d
    let fill := layout.leastFraction - fraction.length
    withPoint whole (fraction ++ String.ofList (List.replicate fill '0'))
  else
    withPoint (String.ofList (digits.take 1)) (String.ofList (digits.drop 1)) ++ "e" ++
      toString lead

/-- The text of a double; the special ones are words. -/
def write (layout : NumberLayout) (x : Binary64) : String :=
  if x.isNaN then "NaN"
  else
    let magnitude := if x.isFinite then layout.magnitudeText x.shortest else "inf"
    if x.negative then "-" ++ magnitude else magnitude

end NumberLayout

open NumberLayout Binary64 in
example :
    [⟨15, -1⟩, ⟨1, -4⟩, ⟨1, 16⟩, ⟨1, -5⟩, ⟨15, -8⟩, ⟨0, 0⟩].map
        (fun d => exact.write (ofDecimal false d)) =
      ["1.5", "0.0001", "1e16", "1e-5", "1.5e-7", "0.0"] := by
  decide +kernel

open NumberLayout Binary64 in
example :
    [⟨1, 0⟩, ⟨0, 0⟩, ⟨1, -7⟩, ⟨1, 21⟩].map (fun d => plain.write (ofDecimal true d)) =
      ["-1", "-0", "-0.0000001", "-1000000000000000000000"] := by
  decide +kernel

end SqlCompose
