import Dataflow.Json.Order
import Dataflow.Json.Printer
import Dataflow.Decimal.Remainder

/-! # Operations on values in expressions

No operation fails: operands of the wrong kind give null. -/

namespace Dataflow

namespace Json

/-- Whether a value counts as true: null, false, zero and the empty string do not. -/
def truthy : Json → Bool
  | .null => false
  | .bool b => b
  | .number n => n.toFloat != 0
  | .string s => s != ""
  | .array _ => true
  | .object _ => true

/-- The text of a value when it is joined to a string: strings as they are, others as JSON. -/
def display : Json → String
  | .string s => s
  | v => v.compact

/-- Equality in expressions: numbers by value, all else as the same JSON. -/
def looseEq (a b : Json) : Bool :=
  match a.toFloat?, b.toFloat? with
  | some x, some y => x == y
  | _, _ => a.same b

/-- The value of an operation on two numbers, null unless both operands are numbers. -/
def arithmetic (f : Float → Float → Float) (a b : Json) : Json :=
  match a.toFloat?, b.toFloat? with
  | some x, some y => ofFloat (f x y)
  | _, _ => .null

/-- Addition of numbers; a string on either side is joined to the text of the other. -/
def plus : Json → Json → Json
  | .string a, b => .string (a ++ b.display)
  | a, .string b => .string (a.display ++ b)
  | a, b => arithmetic (· + ·) a b

/-- A test of the order of two numbers or two strings; null for other pairs. -/
def ordered (test : Ordering → Bool) : Json → Json → Json
  | .number a, .number b => .bool (test (compareValues (.number a) (.number b)))
  | .string a, .string b => .bool (test (compareValues (.string a) (.string b)))
  | _, _ => .null

/-- The number of characters of a string or items of an array. -/
def length? : Json → Option Nat
  | .string s => some s.length
  | .array items => some items.length
  | _ => none

/-- The member of an object, the item of an array, or the `length` of an array or a string. -/
def memberAt : Json → Json → Json
  | .object members, .string key => (find key members).getD .null
  | .array items, .number n =>
    match n.toIndex? with
    | some i => items[i]?.getD .null
    | none => .null
  | v, .string key =>
    if key = "length" then ofOption ofNat v.length? else .null
  | _, _ => .null

end Json

end Dataflow
