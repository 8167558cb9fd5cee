import Dataflow.Json.Basic

/-! # Expression trees

`Expr.calls` lists the function calls of a tree in the order of the source; `Expr.height` is the
number of nodes on its longest branch. -/

namespace Dataflow

/-- An operator before its operand. -/
inductive UnaryOp where
  | negate
  | not
deriving DecidableEq, Repr

/-- An operator between two operands. -/
inductive BinaryOp where
  | mul
  | div
  | rem
  | add
  | sub
  | lt
  | le
  | gt
  | ge
  | eq
  | ne
  | and
  | or
deriving DecidableEq, Repr

/-- An expression over one record. -/
inductive Expr where
  | literal (value : Json)
  | array (items : List Expr)
  /-- A field of the record; `datum` is the record itself. -/
  | name (id : String)
  | member (object property : Expr)
  | unary (op : UnaryOp) (operand : Expr)
  | binary (op : BinaryOp) (left right : Expr)
  | conditional (test yes no : Expr)
  /-- A call of a library function, with the place of its name in the source. -/
  | call (function : String) (arguments : List Expr) (offset : Nat)

namespace Expr

instance : Inhabited Expr := ⟨.literal .null⟩

mutual

/-- The calls of a tree, a call before those in its arguments: the name and where it stands. -/
def calls : Expr → List (String × Nat)
  | .literal _ => []
  | .array items => callsAll items
  | .name _ => []
  | .member object property => calls object ++ calls property
  | .unary _ operand => calls operand
  | .binary _ left right => calls left ++ calls right
  | .conditional test yes no => calls test ++ calls yes ++ calls no
  | .call function arguments offset => (function, offset) :: callsAll arguments

/-- The calls of several trees. -/
def callsAll : List Expr → List (String × Nat)
  | [] => []
  | e :: rest => calls e ++ callsAll rest

end

mutual

/-- The number of nodes on the longest branch. -/
def height : Expr → Nat
  | .literal _ => 1
  | .array items => heightAll items + 1
  | .name _ => 1
  | .member object property => max object.height property.height + 1
  | .unary _ operand => operand.height + 1
  | .binary _ left right => max left.height right.height + 1
  | .conditional test yes no => max (max test.height yes.height) no.height + 1
  | .call _ arguments _ => heightAll arguments + 1

/-- The height of the tallest of several trees. -/
def heightAll : List Expr → Nat
  | [] => 0
  | e :: rest => max e.height (heightAll rest)

end

end Expr

end Dataflow
