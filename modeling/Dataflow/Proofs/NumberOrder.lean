import Dataflow.Json.Number
import Mathlib.Logic.Basic

/-!
# The order of numbers

A number is compared by its value as a binary64 number. The value is never undefined
(`Number.toFloat_ne_nan`): a real of a number is finite, and an integer is rounded to something
finite or infinite. On all values but the undefined one the order is that of a sign, an exponent and
a mantissa in turn (`compare_eq_compareKeys`), so `Number.compare` is a total preorder.
-/

namespace Dataflow

open Float.Model Float.Model.UnpackedFloat Std

/-! ## Values that are defined -/

/-- A word of which the exponent is not full, or else the mantissa is empty, stands for a value. -/
theorem unpack_packComponents_ne_nan {s : Sign} {e : BitVec 11} {m : BitVec 52}
    (h : e ≠ -1#11 ∨ m = 0#52) :
    UnpackedFloat.unpack Format.binary64 (packComponents Format.binary64 s e m) ≠ .notANumber := by
  unfold UnpackedFloat.unpack
  dsimp only
  intro hnan
  obtain ⟨hfull, hnan⟩ | ⟨-, hnan⟩ := ite_eq_iff.mp hnan
  · rw [unpackExponent_packComponents] at hfull
    have hempty : m = 0#52 := h.resolve_left fun hne => hne hfull
    rw [unpackMantissa_packComponents, if_pos hempty] at hnan
    cases hnan
  · obtain ⟨-, hnan⟩ | ⟨-, hnan⟩ := ite_eq_iff.mp hnan
    · obtain ⟨_, hnan⟩ | ⟨_, hnan⟩ := dite_eq_iff.mp hnan <;> cases hnan
    · cases hnan

theorem unpack_pack_ne_nan {x : UnpackedFloat} (hx : x ≠ .notANumber) :
    (Float.Model.pack x).unpack ≠ .notANumber := by
  show UnpackedFloat.unpack Format.binary64 (UnpackedFloat.pack Format.binary64 x) ≠ _
  cases x with
  | notANumber => exact absurd rfl hx
  | infinity s => exact unpack_packComponents_ne_nan (.inr rfl)
  | zero s => exact unpack_packComponents_ne_nan (.inr rfl)
  | finite s m e hm =>
    unfold UnpackedFloat.pack
    dsimp only
    split
    · -- The exponent is too large, and the number is packed as an infinity.
      exact unpack_packComponents_ne_nan (.inr rfl)
    · rename_i hbound
      split
      · refine unpack_packComponents_ne_nan (.inl fun he => hbound ?_)
        -- A full exponent is `2 ^ 11 - 1`, which has been excluded.
        have hfull := congrArg BitVec.toNat he
        have hall : (-1#11).toNat = 2047 := by decide
        rw [BitVec.toNat_ofNat, hall] at hfull
        have hle := Nat.mod_le
          (e + Format.binary64.exponentBias + Format.binary64.mantissaBitsWithoutImplicit).toNat
          (2 ^ Format.binary64.exponentBits)
        rw [hfull] at hle
        exact Nat.succ_le_succ hle
      · exact unpack_packComponents_ne_nan (.inl (by decide))

theorem ofInt_ne_nan (n : Int) : UnpackedFloat.ofInt Format.binary64 n ≠ .notANumber := by
  have hround : ∀ s m e, UnpackedFloat.round Format.binary64 s m e ≠ .notANumber := by
    intro s m e
    unfold UnpackedFloat.round UnpackedFloat.roundWithAccuracy
    dsimp only
    intro hnan
    obtain ⟨_, hnan⟩ | ⟨_, hnan⟩ := dite_eq_iff.mp hnan <;> cases hnan
  unfold UnpackedFloat.ofInt UnpackedFloat.normalize
  split
  · exact hround _ _ _
  · simp
  · exact hround _ _ _

theorem toFloat_ne_nan_of_uint64 (n : UInt64) : n.toFloat.toModel.unpack ≠ .notANumber :=
  unpack_pack_ne_nan (ofInt_ne_nan n.toNat)

theorem neg_ne_nan {x : Float} (hx : x.toModel.unpack ≠ .notANumber) :
    (-x).toModel.unpack ≠ .notANumber := by
  refine unpack_pack_ne_nan ?_
  cases hu : x.toModel.unpack with
  | notANumber => exact absurd hu hx
  | _ => exact fun h => nomatch h

/-- The value of a number is defined. -/
theorem Number.toFloat_ne_nan (n : Number) : n.toFloat.toModel.unpack ≠ .notANumber := by
  cases n with
  | integer n h =>
    show (Number.floatOfInt n).toModel.unpack ≠ .notANumber
    unfold Number.floatOfInt
    split
    · exact neg_ne_nan (toFloat_ne_nan_of_uint64 _)
    · exact toFloat_ne_nan_of_uint64 _
  | real x finite =>
    intro hnan
    have hfinite : x.toModel.unpack.isFinite = true := finite
    have hx : x.toModel.unpack = .notANumber := hnan
    rw [hx] at hfinite
    exact nomatch hfinite

/-! ## The order of values -/

/-- Where a value stands in the order: its sign, with the infinities beyond the rest, then its
exponent and its mantissa, which count downwards below zero. -/
def orderKey : UnpackedFloat → Int × Int × Int
  | .infinity .negative => (-2, 0, 0)
  | .finite .negative m e _ => (-1, -e, -m)
  | .zero _ => (0, 0, 0)
  | .finite .positive m e _ => (1, e, m)
  | .infinity .positive => (2, 0, 0)
  | .notANumber => (3, 0, 0)

/-- The order of two keys: the first places that differ decide. -/
def compareKeys (x y : Int × Int × Int) : Ordering :=
  (compare x.1 y.1).then ((compare x.2.1 y.2.1).then (compare x.2.2 y.2.2))

instance : TransCmp compareKeys :=
  inferInstanceAs (TransCmp (compareLex (compareOn Prod.fst)
    (compareLex (compareOn fun k : Int × Int × Int => k.2.1) (compareOn fun k => k.2.2))))

theorem compare_neg (a b : Int) : compare (-a) (-b) = (compare a b).swap := by
  rw [← OrientedOrd.eq_swap (a := b)]
  simp only [compare, compareOfLessAndEq, Int.neg_lt_neg_iff, Int.neg_inj, eq_comm]

theorem compare_natCast (m n : Nat) : compare (m : Int) (n : Int) = compare m n := by
  simp only [compare, compareOfLessAndEq, Int.ofNat_lt, Int.natCast_inj]

/-- Values that are defined are ordered by their keys. -/
theorem compare_eq_compareKeys {x y : UnpackedFloat} (hx : x ≠ .notANumber)
    (hy : y ≠ .notANumber) :
    UnpackedFloat.compare x y = some (compareKeys (orderKey x) (orderKey y)) := by
  cases x with
  | notANumber => exact absurd rfl hx
  | infinity s =>
    cases y with
    | notANumber => exact absurd rfl hy
    | infinity s' => cases s <;> cases s' <;> rfl
    | zero s' => cases s <;> rfl
    | finite s' => cases s <;> cases s' <;> rfl
  | zero s =>
    cases y with
    | notANumber => exact absurd rfl hy
    | infinity s' => cases s' <;> rfl
    | zero s' => rfl
    | finite s' => cases s' <;> rfl
  | finite s m e hm =>
    cases y with
    | notANumber => exact absurd rfl hy
    | infinity s' => cases s <;> cases s' <;> rfl
    | zero s' => cases s <;> rfl
    | finite s' m' e' hm' =>
      -- Only numbers with the same sign are told apart by exponent and mantissa.
      cases s with
      | positive =>
        cases s' with
        | positive =>
          show some ((compare e e').then (compare m m')) =
            some (compareKeys (1, e, m) (1, e', m'))
          simp [compareKeys, compare_natCast]
        | negative => rfl
      | negative =>
        cases s' with
        | positive => rfl
        | negative =>
          show some ((compare e e').then (compare m m')).swap =
            some (compareKeys (-1, -e, -m) (-1, -e', -m'))
          simp [compareKeys, compare_natCast, compare_neg, Ordering.swap_then]

/-! ## The order of numbers -/

namespace Number

/-- Where a number stands in the order. -/
def key (n : Number) : Int × Int × Int := orderKey n.toFloat.toModel.unpack

theorem toFloat_lt_toFloat (a b : Number) :
    a.toFloat < b.toFloat ↔ compareKeys a.key b.key = .lt := by
  show decide (a.toFloat.toModel < b.toFloat.toModel) = true ↔ _
  rw [decide_eq_true_iff]
  show (UnpackedFloat.compare a.toFloat.toModel.unpack b.toFloat.toModel.unpack == some .lt) = true
    ↔ _
  rw [compare_eq_compareKeys a.toFloat_ne_nan b.toFloat_ne_nan, beq_iff_eq, Option.some.injEq]
  rfl

/-- Numbers are ordered by their keys. -/
theorem compare_eq (a b : Number) : a.compare b = compareKeys a.key b.key := by
  have hswap : compareKeys b.key a.key = (compareKeys a.key b.key).swap := OrientedCmp.eq_swap
  simp only [Number.compare, toFloat_lt_toFloat, hswap]
  cases compareKeys a.key b.key <;> rfl

instance : TransCmp Number.compare where
  eq_swap := by
    intro a b
    rw [compare_eq, compare_eq]
    exact OrientedCmp.eq_swap
  isLE_trans := by
    intro a b c
    rw [compare_eq, compare_eq, compare_eq]
    exact TransCmp.isLE_trans

end Number

end Dataflow
