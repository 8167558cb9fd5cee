import Dataflow.Decimal.Layout

/-! # Reading decimals

The text of an unsigned decimal: digits, a point and more digits, and an exponent.  The digits may
be missing on either side of the point but not on both; point and exponent may be missing. -/

namespace Dataflow.Decimal

/-- The exponent part of a decimal, which may be empty. -/
def exponent? : List Char → Option Int
  | [] => some 0
  | c :: rest =>
    if c = 'e' ∨ c = 'E' then
      let (negative, digits) := match rest with
        | '-' :: digits => (true, digits)
        | '+' :: digits => (false, digits)
        | digits => (false, digits)
      if digits.isEmpty || !digits.all Char.isDigit then none
      else some (if negative then -(ofDigits digits : Int) else ofDigits digits)
    else none

/-- The decimal that a text without a sign denotes. -/
def ofText? (cs : List Char) : Option Decimal :=
  let (whole, rest) := cs.span Char.isDigit
  let (fraction, rest) := match rest with
    | '.' :: rest => rest.span Char.isDigit
    | rest => ([], rest)
  if whole.isEmpty && fraction.isEmpty then none
  else
    (exponent? rest).map fun e => ⟨ofDigits (whole ++ fraction), e - fraction.length⟩

end Dataflow.Decimal
