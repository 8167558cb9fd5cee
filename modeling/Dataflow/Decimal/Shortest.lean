/-! # The shortest decimal of a binary64 number

A finite nonzero binary64 number is `m · 2 ^ q`, and every real between the midpoints to its two
neighbours reads back as it (the midpoints themselves exactly when `m` is even).  Its shortest
decimal is the one with the fewest digits in that interval, and among several with as few digits
the nearest.  Which of two equally near decimals it is depends on the format: see `Tie`.

All comparisons are made in exact natural-number arithmetic. -/

namespace Dataflow

/-- The decimal number `significand · 10 ^ exponent`. -/
structure Decimal where
  significand : Nat
  exponent : Int
deriving DecidableEq, Repr

/-- Which of two neighbours is taken for a number halfway between them. -/
inductive Tie where
  /-- The even one. -/
  | toEven
  /-- The greater one. -/
  | up
deriving DecidableEq, Repr

/-- The choice between `n` and `n + 1`. -/
def Tie.choose : Tie → Nat → Nat
  | .toEven, n => n + n % 2
  | .up, n => n + 1

/-- A nonnegative binary64 number, `mantissa · 2 ^ exponent`. -/
structure Magnitude where
  mantissa : Nat
  exponent : Int
deriving DecidableEq, Repr

namespace Magnitude

/-- The least exponent of a binary64 number. -/
def minExponent : Int := -1074

/-- The leading bit of a mantissa, `2 ^ 52`, which is not written. -/
def hiddenBit : Nat := 0x10000000000000

/-- Whether the neighbour below is closer than the one above: so at every power of two that is
not at the bottom of the exponent range. -/
def closerBelow (x : Magnitude) : Bool :=
  x.mantissa == hiddenBit && decide (minExponent < x.exponent)

/-- The absolute value of a finite number; for the others the result has no meaning. -/
def ofFloat (x : Float) : Magnitude :=
  let bits := x.toBits.toNat
  let biased : Nat := bits / hiddenBit % 0x800
  let fraction := bits % hiddenBit
  if biased = 0 then ⟨fraction, minExponent⟩
  else ⟨hiddenBit + fraction, (biased : Int) - 1075⟩

/-- The exponent of ten of the leading digit, for a nonzero number. -/
def leadingExponent (x : Magnitude) : Int :=
  let bits : Int := x.mantissa.log2 + x.exponent
  let guess := bits * 30103 / 100000 + 1
  -- `10 ^ guess ≤ m · 2 ^ q`, with both sides multiplied by the negative powers
  let lhs := Nat.pow 10 guess.toNat * Nat.pow 2 (-x.exponent).toNat
  let rhs := x.mantissa * Nat.pow 2 x.exponent.toNat * Nat.pow 10 (-guess).toNat
  if lhs ≤ rhs then guess else guess - 1

end Magnitude

namespace Decimal

/-- The number of the grid `10 ^ k` next to `x` that reads back as `x`, if there is one; of two the
nearer, or the choice of `tie`.

Lengths are measured in quarters of the last place of `x`, so that the interval that reads back
runs from `4m - 2` (or `4m - 1`) to `4m + 2`; `grid` and `quarter` are one grid step and one
quarter, brought to a common denominator. -/
def onGrid? (tie : Tie) (x : Magnitude) (k : Int) : Option Nat :=
  let q := x.exponent - 2
  let grid := Nat.pow 10 k.toNat * Nat.pow 2 (-q).toNat
  let quarter := Nat.pow 2 q.toNat * Nat.pow 10 (-k).toNat
  let value := 4 * x.mantissa * quarter
  let low := (4 * x.mantissa - if x.closerBelow then 1 else 2) * quarter
  let high := (4 * x.mantissa + 2) * quarter
  let closed := x.mantissa % 2 == 0
  let readsBack (n : Nat) : Bool :=
    let p := n * grid
    if closed then decide (low ≤ p ∧ p ≤ high) else decide (low < p ∧ p < high)
  let below := value / grid
  match readsBack below, readsBack (below + 1) with
  | false, false => none
  | true, false => some below
  | false, true => some (below + 1)
  | true, true =>
    match compare (2 * value) ((2 * below + 1) * grid) with
    | .lt => some below
    | .gt => some (below + 1)
    | .eq => some (tie.choose below)

/-- The shortest decimal that reads back as the nonzero number `x`.  Seventeen digits always
suffice. -/
def shortest (tie : Tie) (x : Magnitude) : Decimal :=
  let lead := x.leadingExponent
  let found := (List.range 17).findSome? fun (n : Nat) =>
    let k := lead - n
    (onGrid? tie x k).map fun digits => (⟨digits, k⟩ : Decimal)
  found.getD ⟨0, 0⟩

/-- The decimal digits, most significant first. -/
def digits (d : Decimal) : List Char := Nat.toDigits 10 d.significand

/-- Moves zeros at the end of the significand into the exponent. -/
def trim (d : Decimal) : Decimal :=
  let zeros := (d.digits.reverse.takeWhile (· == '0')).length
  if d.significand = 0 then d else ⟨d.significand / Nat.pow 10 zeros, d.exponent + zeros⟩

end Decimal

end Dataflow
