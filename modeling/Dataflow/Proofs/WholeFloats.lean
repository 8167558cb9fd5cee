import Dataflow.Json.Basic
import Mathlib.Tactic.Linarith
import Mathlib.Tactic.Positivity
import Mathlib.Tactic.Ring

/-!
# Integers as binary64 numbers

Every integer below `2 ^ 53` in magnitude is a binary64 number: its binary digits, moved up until
there are 53 of them, are a mantissa. `IsWhole x n` says that `x` is the integer `n` in this sense,
where a zero may have either sign. Rounding loses nothing of such a number (`round_whole`), so a
negation, a sum, a difference or a product of integers is again the integer that it should be, as
long as that is below `2 ^ 53` too:

* `IsWhole.neg`, `IsWhole.add`, `IsWhole.sub`, `IsWhole.mul`
* `isWhole_floatOfInt`: an integer of a number, converted
* `IsWhole.ofFloat`: converted back to a number, it is the integer again
-/

namespace Dataflow

open Float.Model Float.Model.UnpackedFloat

/-! ## Rounding what needs no rounding -/

/-- Zeros at the end of a mantissa are shifted out without a trace. -/
theorem shiftRight_mul_pow (m d : Nat) :
    ExtendedMantissa.mk (m * 2 ^ d) false false >>> d = ⟨m, false, false⟩ := by
  show Nat.repeat ExtendedMantissa.shiftRightOne d _ = _
  induction d generalizing m with
  | zero => simp [Nat.repeat]
  | succ d ih =>
    have hsplit : m * 2 ^ (d + 1) = 2 * m * 2 ^ d := by ring
    rw [Nat.repeat, hsplit, ih]
    simp [ExtendedMantissa.shiftRightOne]

theorem log2_mul_pow {a : Nat} (ha : 0 < a) (j : Nat) : (a * 2 ^ j).log2 = a.log2 + j := by
  have hself := (Nat.log2_eq_iff ha.ne').mp rfl
  rw [Nat.log2_eq_iff (by positivity), pow_add, Nat.add_right_comm, pow_add _ _ j]
  exact ⟨Nat.mul_le_mul_right _ hself.1, Nat.mul_lt_mul_of_pos_right hself.2 (by positivity)⟩

/-- The exponent that rounding aims at leaves 53 digits before the point. -/
theorem targetExponent_eq {m : Nat} {e : Int} (h : -1074 ≤ m.log2 + e - 52) :
    Format.binary64.targetExponent (totalExponent m e) = m.log2 + e - 52 := by
  have hbits : Format.binary64.mantissaBits = 53 := rfl
  simp only [Format.targetExponent, totalExponent, hbits, Format.minExponent]
  omega

/-- A mantissa of 53 digits, with zeros behind it, is rounded to itself. -/
theorem roundWithAccuracy_exact (s : Sign) {m : Nat} (hm : 0 < m) (hlog : m.log2 = 52) (d : Nat)
    {e : Int} (he : -1074 ≤ e) :
    roundWithAccuracy .binary64 s (m * 2 ^ d) (e - d) .exact = .finite s m e hm := by
  -- The first shift takes away the zeros, and the second has nothing left to do.
  have hfirst : shiftToTargetExponent .binary64 (m * 2 ^ d) (e - d) .exact =
      (⟨m, false, false⟩, e) := by
    rw [shiftToTargetExponent, targetExponent_eq (by rw [log2_mul_pow hm]; omega),
      log2_mul_pow hm]
    have hd : ((m.log2 + d : Nat) + (e - d) - 52 - (e - d)).toNat = d := by omega
    simp only [shiftToExponent, hd, ExtendedMantissa.ofMantissaAndAccuracy, shiftRight_mul_pow]
    simp
  have hsecond : shiftToTargetExponent .binary64 m e .exact = (⟨m, false, false⟩, e) := by
    rw [shiftToTargetExponent, targetExponent_eq (by omega)]
    have hzero : (m.log2 + e - 52 - e).toNat = 0 := by omega
    simp only [shiftToExponent, hzero]
    simp [ExtendedMantissa.ofMantissaAndAccuracy]
    rfl
  have hrounded : (ExtendedMantissa.mk m false false).roundedMantissa = m := by
    simp [ExtendedMantissa.roundedMantissa, ExtendedMantissa.accuracy, Accuracy.roundToNearestEven]
  rw [roundWithAccuracy, hfirst]
  dsimp only
  rw [hrounded, hsecond]
  exact dif_neg hm.ne'

/-- The sign that is written is read back. -/
theorem ofBitVec_unpackSign (s : Sign) (e : BitVec 11) (m : BitVec 52) :
    Sign.ofBitVec (unpackSign (packComponents .binary64 s e m)) = s := by
  have hfirst (b : BitVec 1) : (b ++ e ++ m).extractLsb 63 63 = b := by
    ext i hi
    obtain rfl : i = 0 := by omega
    simp only [BitVec.extractLsb, BitVec.getElem_extractLsb', BitVec.getLsbD_append]
    exact BitVec.getLsbD_eq_getElem hi
  have hbit : unpackSign (packComponents .binary64 s e m) = s.toBitVec := hfirst s.toBitVec
  rw [hbit]
  cases s <;> rfl

/-- A mantissa of 53 digits survives being packed into a word. -/
theorem unpack_pack_finite (s : Sign) {m : Nat} (hm : 0 < m) (hlog : m.log2 = 52) {e : Int}
    (he : -1074 ≤ e) (he' : e ≤ 971) :
    (Float.Model.pack (.finite s m e hm)).unpack = .finite s m e hm := by
  obtain ⟨hlo, hhi⟩ := (Nat.log2_eq_iff hm.ne').mp hlog
  -- The exponent that is written is neither that of the small numbers nor that of the infinities.
  let biased : Nat := (e + 1075).toNat
  have hbiased : (BitVec.ofNat 11 biased).toNat = biased := by
    simp only [BitVec.toNat_ofNat, biased]
    omega
  have hfull : BitVec.ofNat 11 biased ≠ -1#11 := by
    intro h
    have hnat : biased = 2047 := by rw [← hbiased, h]; rfl
    omega
  have hempty : BitVec.ofNat 11 biased ≠ 0#11 := by
    intro h
    have hnat : biased = 0 := by rw [← hbiased, h]; rfl
    omega
  -- The first digit of the mantissa is not written.
  have hmantissa : (1#1 ++ BitVec.ofNat 52 m).toNat = m := by
    rw [BitVec.toNat_append, ← Nat.shiftLeft_add_eq_or_of_lt (BitVec.isLt _)]
    simp only [BitVec.toNat_ofNat, Nat.shiftLeft_eq]
    omega
  have hpack : UnpackedFloat.pack .binary64 (.finite s m e hm) =
      packComponents .binary64 s (BitVec.ofNat 11 biased) (BitVec.ofNat 52 m) := by
    have hexp : (e + (Format.binary64.exponentBias : Int) +
        (Format.binary64.mantissaBitsWithoutImplicit : Int)).toNat = biased := by
      simp only [Format.exponentBias, biased]
      omega
    have hbound : ¬ 2 ^ Format.binary64.exponentBits ≤ biased + 1 := by
      show ¬ 2048 ≤ biased + 1
      omega
    unfold UnpackedFloat.pack
    simp only [hexp, if_neg hbound, hlog]
    rfl
  show UnpackedFloat.unpack .binary64 (UnpackedFloat.pack .binary64 (.finite s m e hm)) = _
  rw [hpack]
  unfold UnpackedFloat.unpack
  dsimp only
  rw [if_neg (unpackExponent_packComponents ▸ hfull),
    if_neg (unpackExponent_packComponents ▸ hempty)]
  refine (UnpackedFloat.finite.injEq ..).mpr ⟨ofBitVec_unpackSign .., ?_, ?_⟩
  · rw [unpackMantissa_packComponents]
    exact hmantissa
  · rw [unpackExponent_packComponents, hbiased]
    simp only [Format.exponentBias, biased]
    omega

/-! ## Values that are integers -/

/-- The value is an integer below `2 ^ 53` in magnitude: a zero, or a mantissa of 53 digits of which
the last `k` stand behind the point, where they are all zero. -/
inductive Whole : UnpackedFloat → Int → Prop where
  | zero (s : Sign) : Whole (.zero s) 0
  | finite {s : Sign} {m : Nat} {n : Int} (k : Nat) (hm : 0 < m) (hlog : m.log2 = 52)
      (hn : s.apply m = n * 2 ^ k) : Whole (.finite s m (-k) hm) n

theorem natAbs_apply (s : Sign) (m : Nat) : (s.apply (m : Int)).natAbs = m := by
  cases s <;> simp [Sign.apply]

/-- The mantissa is the magnitude, moved up. -/
theorem mantissa_eq {s : Sign} {m k : Nat} {n : Int} (hn : s.apply m = n * 2 ^ k) :
    m = n.natAbs * 2 ^ k := by
  rw [← natAbs_apply s m, hn, Int.natAbs_mul, Int.natAbs_pow]
  rfl

/-- The sign of the mantissa is the sign of the integer. -/
theorem apply_natAbs {s : Sign} {m k : Nat} {n : Int} (hn : s.apply m = n * 2 ^ k) :
    s.apply n.natAbs = n := by
  have hpow : (2 ^ k : Int) ≠ 0 := by positivity
  apply mul_right_cancel₀ hpow
  rw [← hn, mantissa_eq hn]
  cases s <;> simp [Sign.apply]

/-- How far a number is moved up is known from its first digit. -/
theorem log2_natAbs {s : Sign} {m k : Nat} {n : Int} (hm : 0 < m) (hlog : m.log2 = 52)
    (hn : s.apply m = n * 2 ^ k) : 0 < n.natAbs ∧ n.natAbs.log2 + k = 52 := by
  have heq := mantissa_eq hn
  have hpos : 0 < n.natAbs := by
    apply Nat.pos_of_ne_zero
    intro hzero
    simp [hzero] at heq
    omega
  exact ⟨hpos, by rw [← log2_mul_pow hpos, ← heq, hlog]⟩

namespace Whole

variable {u v : UnpackedFloat} {n : Int}

/-- An integer survives being packed into a word. -/
theorem pack (h : Whole u n) : Whole (Float.Model.pack u).unpack n := by
  cases h with
  | zero s =>
    have hzero : (Float.Model.pack (.zero s)).unpack = .zero s := by
      cases s <;> rfl
    rw [hzero]
    exact .zero s
  | finite k hm hlog hn =>
    have hk := (log2_natAbs hm hlog hn).2
    rw [unpack_pack_finite _ hm hlog (by omega) (by omega)]
    exact .finite k hm hlog hn

/-- Of the values that are one integer, only the zeros differ. -/
theorem eq_or_zero (hu : Whole u n) (hv : Whole v n) :
    u = v ∨ ∃ s s', u = .zero s ∧ v = .zero s' := by
  cases hu with
  | zero s =>
    cases hv with
    | zero s' => exact .inr ⟨s, s', rfl, rfl⟩
    | finite k hm hlog hn => exact absurd (log2_natAbs hm hlog hn).1 (by decide)
  | @finite s m _ k hm hlog hn =>
    cases hv with
    | zero s' => exact absurd (log2_natAbs hm hlog hn).1 (by decide)
    | @finite s' m' _ k' hm' hlog' hn' =>
      have hk : k = k' := by
        have := (log2_natAbs hm hlog hn).2
        have := (log2_natAbs hm' hlog' hn').2
        omega
      subst hk
      have hmm : m = m' := by rw [mantissa_eq hn, mantissa_eq hn']
      subst hmm
      -- The same mantissa with two signs is not the same integer.
      have hs : s = s' := by
        have happly : s.apply (m : Int) = s'.apply (m : Int) := hn.trans hn'.symm
        cases s <;> cases s' <;> simp [Sign.apply] at happly ⊢ <;> omega
      exact .inl (by rw [hs])

/-- Values that are one integer are equal, whatever the sign of a zero. -/
theorem beq (hu : Whole u n) (hv : Whole v n) : u.beq v = true := by
  obtain rfl | ⟨s, s', rfl, rfl⟩ := eq_or_zero hu hv
  · cases hu with
    | zero s => cases s <;> rfl
    | @finite s m =>
      unfold UnpackedFloat.beq UnpackedFloat.compare
      cases s <;> simp
  · cases s <;> cases s' <;> rfl

/-- There is no integer of more than 53 digits. -/
theorem natAbs_lt (h : Whole u n) : n.natAbs < 2 ^ 53 := by
  cases h with
  | zero s => decide
  | finite k hm hlog hn =>
    obtain ⟨hpos, hk⟩ := log2_natAbs hm hlog hn
    exact (Nat.log2_lt hpos.ne').mp (by omega)

/-- Cutting off what stands behind the point leaves the integer. -/
theorem toInt (h : Whole u n) (least greatest : Int) :
    UnpackedFloat.toInt least greatest u = n := by
  cases h with
  | zero s => rfl
  | @finite s m _ k hm hlog hn =>
    have hup : (-(k : Int) - 0).toNat = 0 := by omega
    have hdown : (0 - (-(k : Int) - (0 : Nat))).toNat = k := by omega
    unfold UnpackedFloat.toInt
    simp only [roundToInt, decreaseExponent, shiftToExponent, hup, hdown,
      ExtendedMantissa.ofMantissaAndAccuracy, Nat.shiftLeft_zero]
    rw [mantissa_eq hn, shiftRight_mul_pow]
    exact apply_natAbs hn

end Whole

/-! ## Rounding -/

/-- An integer that has been moved up far enough is rounded to itself. -/
theorem roundWithAccuracy_whole (s : Sign) {a j : Nat} (ha : 0 < a) (hlt : a < 2 ^ 53)
    (hj : 52 ≤ a.log2 + j) :
    Whole (roundWithAccuracy .binary64 s (a * 2 ^ j) (-j) .exact) (s.apply a) := by
  have hlog : a.log2 < 53 := (Nat.log2_lt ha.ne').mpr hlt
  obtain ⟨k, hk⟩ : ∃ k, a.log2 + k = 52 := ⟨52 - a.log2, by omega⟩
  obtain ⟨d, rfl⟩ : ∃ d, j = k + d := ⟨j - k, by omega⟩
  have hm : 0 < a * 2 ^ k := by positivity
  have hexp : (-((k + d : Nat) : Int)) = -k - d := by push_cast; ring
  have happly : s.apply ((a * 2 ^ k : Nat) : Int) = s.apply (a : Int) * 2 ^ k := by
    cases s <;> simp [Sign.apply]
  rw [pow_add, ← Nat.mul_assoc, hexp, roundWithAccuracy_exact s hm (by rw [log2_mul_pow ha, hk]) d
    (by omega)]
  exact .finite k hm (by rw [log2_mul_pow ha, hk]) happly

/-- An integer is rounded to itself, however far it has been moved up. -/
theorem round_whole (s : Sign) {a : Nat} (ha : 0 < a) (hlt : a < 2 ^ 53) (j : Nat) :
    Whole (UnpackedFloat.round .binary64 s (a * 2 ^ j) (-j)) (s.apply a) := by
  have hlog : a.log2 < 53 := (Nat.log2_lt ha.ne').mpr hlt
  have htarget : Format.binary64.targetExponent (totalExponent (a * 2 ^ j) (-j)) =
      a.log2 - 52 := by
    rw [targetExponent_eq (by rw [log2_mul_pow ha]; omega), log2_mul_pow ha]
    omega
  -- It is moved up until 53 digits are there.
  let up : Nat := (-(j : Int) - (a.log2 - 52)).toNat
  have hexp : -(j : Int) - up = -((j + up : Nat) : Int) := by push_cast; ring
  rw [UnpackedFloat.round, htarget]
  show Whole (roundWithAccuracy .binary64 s ((a * 2 ^ j) <<< up) (-(j : Int) - up) .exact) _
  rw [Nat.shiftLeft_eq, Nat.mul_assoc, ← pow_add, hexp]
  exact roundWithAccuracy_whole s ha hlt (by omega)

/-- The same for an integer with its sign. -/
theorem normalize_whole {n : Int} (hn : n.natAbs < 2 ^ 53) (j : Nat) (z : Sign) :
    Whole (UnpackedFloat.normalize .binary64 (n * 2 ^ j) (-j) z) n := by
  have hpow : (0 : Int) < 2 ^ j := by positivity
  obtain ⟨a, rfl | rfl⟩ := n.eq_nat_or_neg
  all_goals
    obtain rfl | ha := Nat.eq_zero_or_pos a
    · simp only [Nat.cast_zero, neg_zero, zero_mul]
      exact .zero z
  · have hpos : compare ((a : Int) * 2 ^ j) 0 = .gt :=
      Int.compare_eq_gt.mpr (by positivity)
    have hnat : ((a : Int) * 2 ^ j).toNat = a * 2 ^ j := by
      norm_cast
    rw [UnpackedFloat.normalize, hpos]
    simp only [hnat]
    exact round_whole .positive ha (by simpa using hn) j
  · have hneg : compare (-(a : Int) * 2 ^ j) 0 = .lt := by
      apply Int.compare_eq_lt.mpr
      have : (0 : Int) < a * 2 ^ j := by positivity
      linarith
    have hnat : (-(-(a : Int) * 2 ^ j)).toNat = a * 2 ^ j := by
      rw [neg_mul, neg_neg]
      norm_cast
    rw [UnpackedFloat.normalize, hneg]
    simp only [hnat]
    exact round_whole .negative ha (by simpa using hn) j

/-! ## Operations -/

theorem apply_neg (s : Sign) (m : Int) : (-s).apply m = -s.apply m := by
  cases s
  · exact (neg_neg m).symm
  · rfl

theorem apply_mul (s s' : Sign) (m m' : Int) :
    (s * s').apply (m * m') = s.apply m * s'.apply m' := by
  cases s <;> cases s'
  · exact (neg_mul_neg m m').symm
  · exact (neg_mul m m').symm
  · exact (mul_neg m m').symm
  · rfl

/-- A mantissa that is moved up further still stands for the integer. -/
theorem apply_decreaseExponent {s : Sign} {m k j : Nat} {n : Int} (hn : s.apply m = n * 2 ^ k)
    (hkj : k ≤ j) : s.apply ((decreaseExponent m (-k) (-j)).1 : Int) = n * 2 ^ j := by
  have hup : (-(k : Int) - -(j : Int)).toNat = j - k := by omega
  have hshift : s.apply ((m <<< (j - k) : Nat) : Int) = s.apply m * 2 ^ (j - k) := by
    cases s <;> simp [Sign.apply, Nat.shiftLeft_eq]
  show s.apply ((m <<< (-(k : Int) - -(j : Int)).toNat : Nat) : Int) = _
  rw [hup, hshift, hn, mul_assoc, ← pow_add, Nat.add_sub_cancel' hkj]

/-- The smaller exponent is that of the mantissa that has been moved up more. -/
theorem min_neg_natCast (k k' : Nat) : min (-(k : Int)) (-k') = -(max k k' : Nat) := by
  omega

namespace Whole

variable {u v : UnpackedFloat} {a b : Int}

theorem neg (hu : Whole u a) : Whole u.neg (-a) := by
  cases hu with
  | zero s => exact .zero (-s)
  | finite k hm hlog hn => exact .finite k hm hlog (by rw [apply_neg, hn, neg_mul])

theorem add (hu : Whole u a) (hv : Whole v b) (h : (a + b).natAbs < 2 ^ 53) :
    Whole (UnpackedFloat.add .binary64 u v) (a + b) := by
  cases hu with
  | zero s =>
    cases hv with
    | zero s' => cases s <;> cases s' <;> exact .zero _
    | finite k hm hlog hn =>
      rw [zero_add]
      exact .finite k hm hlog hn
  | @finite s m _ k hm hlog hn =>
    cases hv with
    | zero s' =>
      rw [add_zero]
      exact .finite k hm hlog hn
    | @finite s' m' _ k' hm' hlog' hn' =>
      -- Both mantissas are moved up as far as the one that needs it most.
      show Whole (UnpackedFloat.normalize .binary64
        (s.apply (decreaseExponent m (-k) (min (-k) (-k'))).1 +
          s'.apply (decreaseExponent m' (-k') (min (-k) (-k'))).1) (min (-k) (-k')) .positive) _
      rw [min_neg_natCast, apply_decreaseExponent hn (Nat.le_max_left k k'),
        apply_decreaseExponent hn' (Nat.le_max_right k k'), ← add_mul]
      exact normalize_whole h _ _

theorem sub (hu : Whole u a) (hv : Whole v b) (h : (a - b).natAbs < 2 ^ 53) :
    Whole (UnpackedFloat.sub .binary64 u v) (a - b) := by
  cases hu with
  | zero s =>
    cases hv with
    | zero s' => cases s <;> cases s' <;> exact .zero _
    | finite k hm hlog hn =>
      rw [zero_sub]
      exact (Whole.finite k hm hlog hn).neg
  | @finite s m _ k hm hlog hn =>
    cases hv with
    | zero s' =>
      rw [sub_zero]
      exact .finite k hm hlog hn
    | @finite s' m' _ k' hm' hlog' hn' =>
      show Whole (UnpackedFloat.normalize .binary64
        (s.apply (decreaseExponent m (-k) (min (-k) (-k'))).1 -
          s'.apply (decreaseExponent m' (-k') (min (-k) (-k'))).1) (min (-k) (-k')) .positive) _
      rw [min_neg_natCast, apply_decreaseExponent hn (Nat.le_max_left k k'),
        apply_decreaseExponent hn' (Nat.le_max_right k k'), ← sub_mul]
      exact normalize_whole h _ _

theorem mul (hu : Whole u a) (hv : Whole v b) (h : (a * b).natAbs < 2 ^ 53) :
    Whole (UnpackedFloat.mul .binary64 u v) (a * b) := by
  cases hu with
  | zero s =>
    rw [zero_mul]
    cases hv with
    | zero s' => exact .zero _
    | finite k hm hlog hn => exact .zero _
  | @finite s m _ k hm hlog hn =>
    cases hv with
    | zero s' => rw [mul_zero]; exact .zero _
    | @finite s' m' _ k' hm' hlog' hn' =>
      obtain ⟨hpos, hk⟩ := log2_natAbs hm hlog hn
      obtain ⟨hpos', hk'⟩ := log2_natAbs hm' hlog' hn'
      -- A product of two mantissas has digits enough, so it is never moved up.
      have hdigits : 52 ≤ (a.natAbs * b.natAbs).log2 + (k + k') := by
        have hprod : a.natAbs.log2 + b.natAbs.log2 ≤ (a.natAbs * b.natAbs).log2 := by
          rw [Nat.le_log2 (by positivity), pow_add]
          exact Nat.mul_le_mul (Nat.log2_self_le hpos.ne') (Nat.log2_self_le hpos'.ne')
        omega
      have hmantissa : m * m' = a.natAbs * b.natAbs * 2 ^ (k + k') := by
        rw [mantissa_eq hn, mantissa_eq hn', pow_add]
        ring
      have hexp : -(k : Int) + -k' = -((k + k' : Nat) : Int) := by push_cast; ring
      have hvalue : (s * s').apply ((a.natAbs * b.natAbs : Nat) : Int) = a * b := by
        rw [Nat.cast_mul, apply_mul, apply_natAbs hn, apply_natAbs hn']
      have hround := roundWithAccuracy_whole (s * s') (Nat.mul_pos hpos hpos')
        (by rwa [← Int.natAbs_mul]) hdigits
      rw [hvalue, ← hmantissa, ← hexp] at hround
      exact hround

end Whole

/-! ## Floats that are integers -/

/-- The float is an integer below `2 ^ 53` in magnitude; a zero may have either sign. -/
def IsWhole (x : Float) (n : Int) : Prop := Whole x.toModel.unpack n

namespace IsWhole

variable {x y : Float} {a b n : Int}

theorem neg (hx : IsWhole x a) : IsWhole (-x) (-a) := Whole.pack (Whole.neg hx)

theorem add (hx : IsWhole x a) (hy : IsWhole y b) (h : (a + b).natAbs < 2 ^ 53) :
    IsWhole (x + y) (a + b) :=
  Whole.pack (Whole.add hx hy h)

theorem sub (hx : IsWhole x a) (hy : IsWhole y b) (h : (a - b).natAbs < 2 ^ 53) :
    IsWhole (x - y) (a - b) :=
  Whole.pack (Whole.sub hx hy h)

theorem mul (hx : IsWhole x a) (hy : IsWhole y b) (h : (a * b).natAbs < 2 ^ 53) :
    IsWhole (x * y) (a * b) :=
  Whole.pack (Whole.mul hx hy h)

/-- Floats that are one integer are equal, whatever the sign of a zero. -/
theorem beq (hx : IsWhole x n) (hy : IsWhole y n) : (x == y) = true := by
  show x.toModel.unpack.beq y.toModel.unpack = true
  exact Whole.beq hx hy

/-- Conversion to an unsigned word gives the integer, or zero below. -/
theorem toUInt64 (hx : IsWhole x n) : x.toUInt64.toNat = n.toNat := by
  have hlt := Whole.natAbs_lt hx
  show (UInt64.ofNatClamp
    (UnpackedFloat.toInt 0 (UInt64.size - 1) x.toModel.unpack).toNat).toNat = _
  rw [Whole.toInt hx, UInt64.ofNatClamp, dif_pos (by simp only [UInt64.size]; omega)]
  rfl

theorem wholePart (hx : IsWhole x n) : Number.wholePart x = n := by
  rw [Number.wholePart, hx.toUInt64, hx.neg.toUInt64]
  omega

end IsWhole

theorem isWhole_ofNat {n : Nat} (hn : n < 2 ^ 53) : IsWhole n.toUInt64.toFloat n := by
  have hmod : n.toUInt64.toNat = n := by
    simp only [Nat.toUInt64, UInt64.toNat_ofNat']
    omega
  have hwhole : Whole (UnpackedFloat.normalize .binary64 (n * 2 ^ 0) (-(0 : Nat)) .positive) n :=
    normalize_whole (by simpa using hn) 0 .positive
  simp only [pow_zero, mul_one, Nat.cast_zero, neg_zero] at hwhole
  show Whole (Float.Model.pack (UnpackedFloat.ofInt .binary64 n.toUInt64.toNat)).unpack n
  rw [hmod]
  exact hwhole.pack

/-- An integer of a number is converted to itself. -/
theorem isWhole_floatOfInt {n : Int} (hn : n.natAbs < 2 ^ 53) :
    IsWhole (Number.floatOfInt n) n := by
  unfold Number.floatOfInt
  split
  · have hneg := (isWhole_ofNat hn).neg
    rwa [show -(n.natAbs : Int) = n by omega] at hneg
  · have hpos := isWhole_ofNat (n := n.toNat) (by omega)
    rwa [show (n.toNat : Int) = n by omega] at hpos

namespace IsWhole

variable {x : Float} {n : Int}

/-- A float that is a safe integer is found to be it. -/
theorem safeInt? (hx : IsWhole x n) (h : -Number.maxSafe ≤ n ∧ n ≤ Number.maxSafe) :
    Number.safeInt? x = some ⟨n, h⟩ := by
  have hback : (Number.floatOfInt n == x) = true := (isWhole_floatOfInt (Whole.natAbs_lt hx)).beq hx
  simp only [Number.safeInt?, hx.wholePart, dif_pos h, if_pos hback]

/-- A float that is a safe integer becomes this integer: no real, and not null. -/
theorem ofFloat (hx : IsWhole x n) (h : -Number.maxSafe ≤ n ∧ n ≤ Number.maxSafe) :
    Json.ofFloat x = .number (.integer n (Number.fits_of_safe h)) := by
  simp only [Json.ofFloat, Number.ofFloat?, hx.safeInt? h]

end IsWhole

end Dataflow
