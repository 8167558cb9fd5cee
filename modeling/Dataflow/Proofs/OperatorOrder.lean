import Dataflow.Proofs.ValueOrder
import Mathlib.Data.String.Basic
import Mathlib.Logic.Basic

/-!
# Equality and order in expressions

Equality compares numbers by value and all else as JSON, and the relations order two numbers or two
strings; a comparator orders everything. They never disagree. What equality looks at is one thing
for each value (`equalityClass`), so it is an equivalence relation, and on numbers and on strings
two values are of one class exactly if the order has them tie (`looseEq_eq_compareValues`). The main
result is `operators_consistent`: how a comparator places two numbers or two strings decides all six
operators, and between other values the relations say nothing.
-/

namespace Dataflow

open Float.Model

/-! ## Equality -/

theorem compareKeys_eq_iff {x y : Int × Int × Int} : compareKeys x y = .eq ↔ x = y := by
  simp [compareKeys, Ordering.then_eq_eq, Prod.ext_iff]

namespace Number

/-- Numbers are equal as floats exactly if the order has them tie. -/
theorem toFloat_beq (a b : Number) : (a.toFloat == b.toFloat) = (a.compare b == .eq) := by
  show (UnpackedFloat.compare a.toFloat.toModel.unpack b.toFloat.toModel.unpack == some .eq) = _
  rw [compare_eq_compareKeys a.toFloat_ne_nan b.toFloat_ne_nan, compare_eq]
  rfl

end Number

namespace Json

/-- What equality looks at: the value of a number, and of all else the value up to the order of
members. -/
def equalityClass : Json → (Int × Int × Int) ⊕ Json
  | .number n => .inl n.key
  | v => .inr v.canonical

theorem number_or_not (v : Json) : (∃ n, v = .number n) ∨ v.toFloat? = none := by
  cases v with
  | number n => exact .inl ⟨n, rfl⟩
  | _ => exact .inr rfl

/-- The canonical form of a value that is no number is none either. -/
theorem canonical_ne_number {v : Json} (hv : v.toFloat? = none) (n : Number) :
    v.canonical ≠ .number n := by
  cases v with
  | number m => exact nomatch hv
  | _ => simp [canonical]

theorem equalityClass_of_not_number {v : Json} (hv : v.toFloat? = none) :
    v.equalityClass = .inr v.canonical := by
  cases v with
  | number m => exact nomatch hv
  | _ => rfl

/-- Two numbers are equal exactly if the order has them tie. -/
theorem looseEq_number (m n : Number) :
    (Json.number m).looseEq (.number n) = (m.compare n == .eq) :=
  m.toFloat_beq n

/-- Values are equal exactly if they are of one class. -/
theorem looseEq_iff {a b : Json} : a.looseEq b = true ↔ a.equalityClass = b.equalityClass := by
  obtain ⟨m, rfl⟩ | ha := a.number_or_not
  · obtain ⟨n, rfl⟩ | hb := b.number_or_not
    · rw [looseEq_number, beq_iff_eq, Number.compare_eq, compareKeys_eq_iff]
      simp only [equalityClass, Sum.inl.injEq]
    · -- A number and something else are compared as JSON, and are never the same.
      have hsame : (Json.number m).looseEq b = (Json.number m).same b := by simp [looseEq, hb]
      rw [hsame, equalityClass_of_not_number hb, same, decide_eq_true_iff]
      simp only [equalityClass, reduceCtorEq, iff_false]
      exact fun h => canonical_ne_number hb _ h.symm
  · have hsame : a.looseEq b = a.same b := by simp [looseEq, ha]
    rw [hsame, equalityClass_of_not_number ha, same, decide_eq_true_iff]
    obtain ⟨n, rfl⟩ | hb := b.number_or_not
    · simp only [equalityClass, reduceCtorEq, iff_false]
      exact canonical_ne_number ha _
    · rw [equalityClass_of_not_number hb, Sum.inr.injEq]

theorem looseEq_equivalence : Equivalence fun a b : Json => a.looseEq b = true := by
  simp only [looseEq_iff]
  exact (eq_equivalence (α := (Int × Int × Int) ⊕ Json)).comap equalityClass

/-! ## Order -/

/-- Pairs of values that the relations tell apart: two numbers, or two strings. -/
inductive Comparable : Json → Json → Prop where
  | numbers (m n : Number) : Comparable (.number m) (.number n)
  | strings (s t : String) : Comparable (.string s) (.string t)

/-- Two numbers or two strings are equal exactly if the order has them tie. -/
theorem Comparable.looseEq {l r : Json} (h : Comparable l r) :
    l.looseEq r = (l.compareValues r == .eq) := by
  cases h with
  | numbers m n => exact looseEq_number m n
  | strings s t =>
    have hsame : (Json.string s).looseEq (.string t) = decide (s = t) := by
      simp [Json.looseEq, same, canonical, toFloat?]
    rw [hsame, Bool.eq_iff_iff, decide_eq_true_iff, beq_iff_eq]
    exact compare_eq_iff_eq.symm

theorem Comparable.ordered {l r : Json} (h : Comparable l r) (test : Ordering → Bool) :
    Json.ordered test l r = .bool (test (l.compareValues r)) := by
  cases h <;> rfl

theorem ordered_of_not_comparable {l r : Json} (h : ¬ Comparable l r) (test : Ordering → Bool) :
    Json.ordered test l r = .null := by
  unfold Json.ordered
  split
  · exact absurd (.numbers _ _) h
  · exact absurd (.strings _ _) h
  · rfl

end Json

/-! ## Operators and comparators -/

namespace Expr

/-- How two values stand to each other is what all six operators say. -/
structure Decides (o : Ordering) (l r : Json) : Prop where
  eq : apply .eq l r = .bool (o == .eq)
  lt : apply .lt l r = .bool (o == .lt)
  gt : apply .gt l r = .bool (o == .gt)
  ne : apply .ne l r = .bool (!(o == .eq))
  le : apply .le l r = .bool (!(o == .gt))
  ge : apply .ge l r = .bool (!(o == .lt))

theorem decides_of_comparable {l r : Json} (h : Json.Comparable l r) :
    Decides (l.compareValues r) l r where
  eq := by rw [apply, h.looseEq]
  ne := by rw [apply, h.looseEq]
  lt := by rw [apply, h.ordered]; cases l.compareValues r <;> rfl
  le := by rw [apply, h.ordered]; cases l.compareValues r <;> rfl
  gt := by rw [apply, h.ordered]; cases l.compareValues r <;> rfl
  ge := by rw [apply, h.ordered]; cases l.compareValues r <;> rfl

/-- A comparator by one field, ascending, compares the values of the field. -/
theorem ascending_comparator (serial : Nat) {path : String} {segments : List String}
    (hpath : FieldPath.split path = .ok segments) :
    ∃ c, Comparator.ofFields serial [path] [.ascending] = .ok c ∧ ∀ a b,
      c.compare a b = (a.follow segments).compareValues (b.follow segments) := by
  refine ⟨⟨serial, [⟨path, segments, .ascending⟩]⟩, ?_, fun a b => ?_⟩
  · simp only [Comparator.ofFields, SortKey.ofFields, List.head?_cons, Option.getD_some,
      SortKey.ofField_of_split _ hpath]
    rfl
  · exact Ordering.then_eq

/-- Equality is an equivalence relation, and inequality is its negation. Between two numbers or two
strings there is an order, which an ascending comparator of records with these values follows, and
which says of less, equal and greater that exactly one is true, and that the other three are their
negations. Between other values the relations are null. -/
theorem operators_consistent :
    Equivalence (fun l r => apply .eq l r = .bool true) ∧
      (∀ l r, ∃ b, apply .eq l r = .bool b ∧ apply .ne l r = .bool (!b)) ∧
      (∀ l r, Json.Comparable l r → ∃ o, Decides o l r ∧
        ∀ serial path segments, FieldPath.split path = .ok segments →
          ∃ c, Comparator.ofFields serial [path] [.ascending] = .ok c ∧
            ∀ a b, a.follow segments = l → b.follow segments = r → c.compare a b = o) ∧
      ∀ l r, ¬ Json.Comparable l r →
        ∀ op ∈ [BinaryOp.lt, .le, .gt, .ge], apply op l r = .null := by
  refine ⟨?_, fun l r => ⟨_, rfl, rfl⟩, fun l r h => ?_, fun l r h op hop => ?_⟩
  · simpa only [apply, Json.bool.injEq] using Json.looseEq_equivalence
  · refine ⟨_, decides_of_comparable h, fun serial path segments hpath => ?_⟩
    obtain ⟨c, hc, hcompare⟩ := ascending_comparator serial hpath
    refine ⟨c, hc, ?_⟩
    rintro a b rfl rfl
    exact hcompare a b
  · simp only [List.mem_cons, List.not_mem_nil, or_false] at hop
    obtain rfl | rfl | rfl | rfl := hop
    all_goals exact Json.ordered_of_not_comparable h _

/-- An integer that is no binary64 number ties with the neighbour that it is rounded to, and stands
in no relation to a string. -/
theorem operators_consistent_rounded :
    let l : Json := .number (.integer 0x20000000000001 (by decide))
    let r : Json := .number (.integer 0x20000000000000 (by decide))
    Decides .eq l r ∧
      (∃ c, Comparator.ofFields 0 ["n"] [.ascending] = .ok c ∧
        c.compare (.object [("n", l)]) (.object [("n", r)]) = .eq) ∧
      apply .lt l (.string "a") = .null := by
  intro l r
  obtain ⟨-, -, hcomparable, hother⟩ := operators_consistent
  obtain ⟨o, hdecides, hcomparator⟩ := hcomparable l r (.numbers _ _)
  have heq : apply .eq l r = .bool true := by decide +kernel
  obtain rfl : o = .eq := by simpa using hdecides.eq.symm.trans heq
  obtain ⟨c, hc, hcompare⟩ := hcomparator 0 "n" ["n"] (by cbv)
  refine ⟨hdecides, ⟨c, hc, hcompare _ _ (by decide) (by decide)⟩, hother l (.string "a") ?_ .lt ?_⟩
  · show ¬ Json.Comparable (.number _) (.string _)
    rintro ⟨⟩
  · decide

end Expr

end Dataflow
