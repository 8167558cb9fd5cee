import Dataflow.Decimal.Shortest

/-! # Exact remainders

The remainder of a division that rounds toward zero, in binary64.  It is always a binary64 number,
so it is computed exactly on the mantissas, brought to the smaller exponent. -/

namespace Dataflow

namespace Magnitude

/-- The binary64 number `2 ^ e`, for an exponent in the range of the format. -/
def powerOfTwo (e : Int) : Float :=
  if -1022 ≤ e then Float.ofBits ((e + 1023).toNat * hiddenBit).toUInt64
  else Float.ofBits (Nat.pow 2 (e + 1074).toNat).toUInt64

/-- The binary64 number, for a mantissa below `2 ^ 53`. -/
def toFloat (x : Magnitude) : Float := x.mantissa.toUInt64.toFloat * powerOfTwo x.exponent

/-- The remainder of two magnitudes of which the second is not zero. -/
def remainder (x y : Magnitude) : Magnitude :=
  let e := min x.exponent y.exponent
  let m := x.mantissa * Nat.pow 2 (x.exponent - e).toNat
  let n := y.mantissa * Nat.pow 2 (y.exponent - e).toNat
  ⟨m % n, e⟩

end Magnitude

/-- The remainder of `x` by `y`, with the sign of `x`; not a number when `y` is zero or `x` is not
finite. -/
def Float.remainder (x y : Float) : Float :=
  if x.isFinite && !y.isNaN && !(y == 0) then
    if y.isInf then x
    else
      let r := ((Magnitude.ofFloat x).remainder (Magnitude.ofFloat y)).toFloat
      if x < 0 then -r else r
  else 0 / 0

end Dataflow
