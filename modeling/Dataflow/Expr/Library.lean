import Dataflow.Id
import Dataflow.Decimal.Reading
import Dataflow.Expr.Value
import Dataflow.Text.Blank
import Dataflow.Text.Casing

/-! # Function libraries

A `Library` is a table of named functions that expressions may call.  A function is told the
scope in which the expression was resolved, through the `Binding` of the library to that scope.

`Builtin` lists the functions of the standard library.  Which names may be called
(`Builtin.names`) and which function a call reaches (`Builtin.ofName?`) are two tables; they agree
(`Builtin.isSome_ofName?`). -/

namespace Dataflow

/-- What a function may know about the scope it is called for. -/
structure ScopeContext where
  scope : ScopeId
  /-- The indices of the forks from the root down to the scope. -/
  itemPath : List Nat
deriving DecidableEq, Repr

namespace ScopeContext

/-- How deep the scope is nested; the root has depth zero. -/
def depth (c : ScopeContext) : Nat := c.itemPath.length

/-- The index with which the scope was forked; the root has none. -/
def itemIndex? (c : ScopeContext) : Option Nat := c.itemPath.getLast?

end ScopeContext

/-- A table of functions. -/
structure Library where
  contains : String → Bool
  /-- The value of a call, none when there is no such function. -/
  call : String → List Json → ScopeContext → Option Json

/-- A library bound to a scope. -/
structure Binding where
  library : Library
  context : ScopeContext

namespace Binding

/-- Whether the library has the function. -/
def contains (b : Binding) (function : String) : Bool := b.library.contains function

/-- Calls a function for the scope. -/
def call (b : Binding) (function : String) (arguments : List Json) : Option Json :=
  b.library.call function arguments b.context

end Binding

/-- A function of the standard library. -/
inductive Builtin where
  | abs
  | ceil
  | floor
  | round
  | sqrt
  | pow
  | min
  | max
  | length
  | upper
  | lower
  | isValid
  | toString
  | toNumber
  | itemPath
  | itemIndex
  | depth
deriving DecidableEq, Repr

namespace Builtin

/-- The names that expressions may call. -/
def names : List String := [
  "abs", "ceil", "floor", "round", "sqrt", "pow", "min", "max", "length", "upper", "lower",
  "isValid", "toString", "toNumber", "itemPath", "itemIndex", "depth"]

/-- The function that a call of the name reaches. -/
def ofName? : String → Option Builtin
  | "abs" => some abs
  | "ceil" => some ceil
  | "floor" => some floor
  | "round" => some round
  | "sqrt" => some sqrt
  | "pow" => some pow
  | "min" => some min
  | "max" => some max
  | "length" => some length
  | "upper" => some upper
  | "lower" => some lower
  | "isValid" => some isValid
  | "toString" => some toString
  | "toNumber" => some toNumber
  | "itemPath" => some itemPath
  | "itemIndex" => some itemIndex
  | "depth" => some depth
  | _ => none

/-- A call reaches a function if and only if the name may be called. -/
theorem isSome_ofName? (name : String) : (ofName? name).isSome = names.contains name := by
  unfold ofName?
  split
  all_goals try rfl
  -- What is left are the names that no line of the dispatch is about.
  simp_all [names]

/-- The number that a text spells, with an optional sign; infinities and NaN have names. -/
def readFloat? (cs : List Char) : Option Float :=
  let (negative, cs) := match cs with
    | '-' :: rest => (true, rest)
    | '+' :: rest => (false, rest)
    | cs => (false, cs)
  let magnitude := match String.ofList (cs.map Char.toLower) with
    | "inf" => some (1 / 0)
    | "infinity" => some (1 / 0)
    | "nan" => some (0 / 0)
    | _ => (Decimal.ofText? cs).map Decimal.toFloat
  magnitude.map fun x => if negative then -x else x

/-- Folds the arguments that are numbers; null when there are none. -/
def foldNumbers (f : Float → Float → Float) (arguments : List Json) : Json :=
  match arguments.filterMap Json.toFloat? with
  | [] => .null
  | x :: rest => Json.ofFloat (rest.foldl f x)

/-- The value of a call.  Missing arguments count as null, and spare ones are ignored. -/
def apply (f : Builtin) (arguments : List Json) (context : ScopeContext) : Json :=
  let first := arguments.head?.getD .null
  let second := arguments.tail.head?.getD .null
  let onNumber (g : Float → Float) : Json := Json.ofOption (Json.ofFloat ∘ g) first.toFloat?
  let onText (g : String → String) : Json := Json.ofOption (Json.string ∘ g) first.toString?
  match f with
  | .abs => onNumber Float.abs
  | .ceil => onNumber Float.ceil
  | .floor => onNumber Float.floor
  | .round => onNumber Float.round
  | .sqrt => onNumber Float.sqrt
  | .pow => Json.arithmetic Float.pow first second
  | .min => foldNumbers (fun a b => if b < a then b else a) arguments
  | .max => foldNumbers (fun a b => if a < b then b else a) arguments
  | .length => Json.ofOption Json.ofNat first.length?
  | .upper => onText Text.upper
  | .lower => onText Text.lower
  | .isValid => .bool (first != .null)
  | .toString =>
    match first with
    | .null => .null
    | v => .string v.display
  | .toNumber =>
    match first with
    | .number n => .number n
    | .bool b => Json.ofNat b.toNat
    | .string s => Json.ofOption Json.ofFloat (readFloat? (Text.trim s.toList))
    | _ => .null
  | .itemPath => .array (context.itemPath.map Json.ofNat)
  | .itemIndex => Json.ofOption Json.ofNat context.itemIndex?
  | .depth => Json.ofNat context.depth

end Builtin

/-- The standard library. -/
def Library.standard : Library where
  contains name := Builtin.names.contains name
  call name arguments context := (Builtin.ofName? name).map (·.apply arguments context)

end Dataflow
