import Dataflow.Json.Basic

/-! # The order of JSON values

Values are ordered by kind, null first and objects last.  Within a kind: false before true,
numbers by value, strings by code point, arrays item by item with a prefix first.  All objects
tie, so this is a total preorder and not an order. -/

namespace Dataflow

namespace Json

/-- The place of a value's kind in the order of kinds. -/
def rank : Json → Nat
  | .null => 0
  | .bool _ => 1
  | .number _ => 2
  | .string _ => 3
  | .array _ => 4
  | .object _ => 5

mutual

/-- The order of two values. -/
def compareValues : Json → Json → Ordering
  | .bool a, .bool b => compare a b
  | .number a, .number b => a.compare b
  | .string a, .string b => compare a b
  | .array xs, .array ys => compareItems xs ys
  | a, b => compare a.rank b.rank

/-- The order of two arrays: the first items that differ decide, then the length. -/
def compareItems : List Json → List Json → Ordering
  | [], [] => .eq
  | [], _ :: _ => .lt
  | _ :: _, [] => .gt
  | x :: xs, y :: ys => (compareValues x y).then (compareItems xs ys)

end

end Json

end Dataflow
