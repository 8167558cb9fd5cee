import Dataflow.Decimal.Layout

/-! # JSON numbers

A number is an integer that fits 64 bits, signed or unsigned, or a finite binary64 number.  The
two kinds are different values even when they denote the same real: `1` is not `1.0`.

`Number.ofFloat?` is how computed results become numbers: a whole result of magnitude at most
`2 ^ 53 - 1` is an integer. -/

namespace Dataflow

/-- A JSON number. -/
inductive Number where
  /-- An integer in the range of a signed or an unsigned 64-bit word. -/
  | integer (value : Int) (fits : -0x8000000000000000 ≤ value ∧ value < 0x10000000000000000)
  /-- A finite binary64 number. -/
  | real (value : Float) (finite : value.isFinite = true)
deriving DecidableEq

namespace Number

instance : Inhabited Number := ⟨.integer 0 (by decide)⟩

/-- The binary64 number nearest to an integer that fits 64 bits. -/
def floatOfInt (n : Int) : Float :=
  if n < 0 then -n.natAbs.toUInt64.toFloat else n.toNat.toUInt64.toFloat

/-- The value as a binary64 number; integers beyond `2 ^ 53` are rounded. -/
def toFloat : Number → Float
  | .integer n _ => floatOfInt n
  | .real x _ => x

/-- The number of an integer in range. -/
def ofInt? (n : Int) : Option Number :=
  if h : -0x8000000000000000 ≤ n ∧ n < 0x10000000000000000 then some (.integer n h) else none

/-- The number of a finite float, kept as a float. -/
def ofFinite? (x : Float) : Option Number :=
  if h : x.isFinite = true then some (.real x h) else none

/-- The largest magnitude at which every integer is a binary64 number. -/
def maxSafe : Int := 0x1FFFFFFFFFFFFF

theorem fits_of_safe {n : Int} (h : -maxSafe ≤ n ∧ n ≤ maxSafe) :
    -0x8000000000000000 ≤ n ∧ n < 0x10000000000000000 := by
  unfold maxSafe at h
  omega

/-- The value without its fraction, for values below `2 ^ 64` in magnitude. -/
def wholePart (x : Float) : Int :=
  -- Conversion to an unsigned word gives zero for negative values, so one of the two is zero.
  (x.toUInt64.toNat : Int) - (-x).toUInt64.toNat

/-- The integer that equals `x`, if there is one of magnitude at most `maxSafe`. -/
def safeInt? (x : Float) : Option { n : Int // -maxSafe ≤ n ∧ n ≤ maxSafe } :=
  let n := wholePart x
  if h : -maxSafe ≤ n ∧ n ≤ maxSafe then
    if floatOfInt n == x then some ⟨n, h⟩ else none
  else none

/-- A computed number: an integer where that is exact, else the float; none unless finite. -/
def ofFloat? (x : Float) : Option Number :=
  match safeInt? x with
  | some n => some (.integer n.1 (fits_of_safe n.2))
  | none => ofFinite? x

/-- The order of the values as binary64 numbers. -/
def compare (a b : Number) : Ordering :=
  if a.toFloat < b.toFloat then .lt else if b.toFloat < a.toFloat then .gt else .eq

/-- A representative of the numbers that count as equal: negative zero is zero. -/
def canonical : Number → Number
  | .integer n h => .integer n h
  | .real x h => if x == 0 then .real 0 (by decide) else .real x h

/-- An integer in decimal; a float in its shortest decimal, with a point or an exponent. -/
def text : Number → String
  | .integer n _ => toString n
  | .real x _ => Layout.numeric.writeFloat x

/-- The value as an index: only integers that are not negative. -/
def toIndex? : Number → Option Nat
  | .integer n _ => if 0 ≤ n then some n.toNat else none
  | .real .. => none

end Number

end Dataflow
