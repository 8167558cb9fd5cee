import Dataflow.Decimal.Shortest

/-! # Writing and reading decimals

A `Layout` says which numbers are written positionally, what marks a whole number and how ties are
broken; the numbers that are not positional are written with an exponent.  `Decimal.toFloat` is the
nearest binary64 number. -/

namespace Dataflow

/-- How a decimal is written. -/
structure Layout where
  /-- Whether a number whose leading digit stands at this power of ten is written positionally. -/
  positional : Int → Bool
  /-- What follows the digits of a whole number written positionally. -/
  wholeMark : String
  /-- Which of two equally near shortest decimals is written. -/
  tie : Tie

namespace Layout

/-- Positional whatever the size, and whole numbers without a point; a tie goes up. -/
def plain : Layout := ⟨fun _ => true, "", .up⟩

/-- Positional from `1e-5` to below `1e16`; whole numbers keep `.0`, and a tie goes to the even
digit. -/
def numeric : Layout := ⟨fun e => decide (-5 ≤ e ∧ e ≤ 15), ".0", .toEven⟩

end Layout

namespace Decimal

/-- Digits around a decimal point, with zeros filled in on either side. -/
def writePositional (d : Decimal) (wholeMark : String) : String :=
  let digits := d.digits
  if 0 ≤ d.exponent then
    String.ofList (digits ++ List.replicate d.exponent.toNat '0') ++ wholeMark
  else
    let places := (-d.exponent).toNat
    let padded := List.replicate (places + 1 - digits.length) '0' ++ digits
    let whole := padded.take (padded.length - places)
    let fraction := padded.drop (padded.length - places)
    String.ofList whole ++ "." ++ String.ofList fraction

/-- One digit, the others after a point, and a signed exponent. -/
def writeScientific (d : Decimal) : String :=
  let digits := d.digits
  let lead := d.exponent + (digits.length - 1 : Nat)
  let fraction := digits.drop 1
  let mantissa := String.ofList (digits.take 1) ++
    if fraction.isEmpty then "" else "." ++ String.ofList fraction
  mantissa ++ (if lead < 0 then "e-" else "e+") ++ toString lead.natAbs

/-- The text of a decimal without needless zeros. -/
def write (layout : Layout) (d : Decimal) : String :=
  let lead := d.exponent + (d.digits.length - 1 : Nat)
  if layout.positional lead then d.writePositional layout.wholeMark else d.writeScientific

/-- The nearest binary64 number, infinite when the decimal is beyond the range. -/
def toFloat (d : Decimal) : Float :=
  OfScientific.ofScientific d.significand (decide (d.exponent < 0)) d.exponent.natAbs

/-- The value of a list of decimal digits. -/
def ofDigits (digits : List Char) : Nat :=
  digits.foldl (fun n c => 10 * n + (c.toNat - '0'.toNat)) 0

end Decimal

/-- The text of a number: its shortest decimal in the given layout, with `NaN`, `inf` and `-inf`
for the numbers that have none. -/
def Layout.writeFloat (layout : Layout) (x : Float) : String :=
  let sign := if x.toBits.toNat / 0x8000000000000000 = 1 then "-" else ""
  if x.isNaN then "NaN"
  else if x.isInf then sign ++ "inf"
  else if x == 0 then sign ++ "0" ++ layout.wholeMark
  else sign ++ (Decimal.shortest layout.tie (Magnitude.ofFloat x)).trim.write layout

end Dataflow
