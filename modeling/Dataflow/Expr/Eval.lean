import Dataflow.Expr.Library
import Dataflow.Expr.Parser

/-! # Checking and evaluating expressions

`Expr.compile` reads a text and checks that every function it calls is in the library, if there is
one.  `Expr.eval` gives the value of an expression on a record; it never fails. -/

namespace Dataflow

namespace Expr

/-- The value of an operator on two values; `and` and `or` look at both only here. -/
def apply : BinaryOp → Json → Json → Json
  | .eq, a, b => .bool (a.looseEq b)
  | .ne, a, b => .bool (!a.looseEq b)
  | .lt, a, b => Json.ordered Ordering.isLT a b
  | .le, a, b => Json.ordered Ordering.isLE a b
  | .gt, a, b => Json.ordered Ordering.isGT a b
  | .ge, a, b => Json.ordered Ordering.isGE a b
  | .add, a, b => Json.plus a b
  | .sub, a, b => Json.arithmetic (· - ·) a b
  | .mul, a, b => Json.arithmetic (· * ·) a b
  | .div, a, b => Json.arithmetic (· / ·) a b
  | .rem, a, b => Json.arithmetic Float.remainder a b
  | .and, a, b => if a.truthy then b else a
  | .or, a, b => if a.truthy then a else b

/-- The value of a prefix operator. -/
def applyUnary : UnaryOp → Json → Json
  | .not, v => .bool (!v.truthy)
  | .negate, v => Json.ofOption (fun x => Json.ofFloat (-x)) v.toFloat?

mutual

/-- The value of an expression on a record. -/
def eval (library : Option Binding) (datum : Json) : Expr → Json
  | .literal v => v
  | .array items => .array (evalAll library datum items)
  | .name id => if id = "datum" then datum else (datum.get? id).getD .null
  | .member object property =>
    (eval library datum object).memberAt (eval library datum property)
  | .unary op operand => applyUnary op (eval library datum operand)
  | .binary op left right => apply op (eval library datum left) (eval library datum right)
  | .conditional test yes no =>
    if (eval library datum test).truthy then eval library datum yes else eval library datum no
  | .call function arguments _ =>
    (library.bind fun b => b.call function (evalAll library datum arguments)).getD .null

/-- The values of several expressions. -/
def evalAll (library : Option Binding) (datum : Json) : List Expr → List Json
  | [] => []
  | e :: rest => eval library datum e :: evalAll library datum rest

end

/-- The first call of a function that the library does not have. -/
def unknownCall? (library : Binding) (e : Expr) : Option (String × Nat) :=
  e.calls.find? fun c => !library.contains c.1

/-- Reads an expression and, if there is a library, checks its calls. -/
def compile (text : String) (library : Option Binding) : Except SyntaxError Expr := do
  let e ← parse text
  match library.bind (unknownCall? · e) with
  | some (function, offset) => throw (.unknownFunction function offset)
  | none => return e

end Expr

end Dataflow
