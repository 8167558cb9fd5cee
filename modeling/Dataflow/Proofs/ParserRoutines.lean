import Dataflow.Proofs.ExprReaders

/-!
# A parser with a counter and a stack

`Expr.expression` is told how many levels of nesting are left, so what it has opened need not be
closed again. The routines here count the levels that are open in their state instead, and set the
counter back themselves (`Routine.nested`). They take one lexeme at a time, also where an error
follows, and look at most at one.

There is a routine for each `Part`. Routines call each other by the part that they want
(`Routine.body`), and a call takes a place on a stack (`Routine.run`). A stack that overflows and a
loop that does not end have no outcome at all. `Part.frames` is how much stack a part may need.
-/

namespace Dataflow

/-- The operator that a token stands for between two operands. -/
def Token.binary? (t : Token) : Option BinaryOp :=
  Expr.operatorLevels.findSome? fun operators => operators t

theorem Token.binary?_eq_some {t : Token} {op : BinaryOp} : t.binary? = some op ↔ t = op.token := by
  constructor
  · intro h
    cases t <;> first | (obtain rfl := Option.some.inj h; rfl) | exact nomatch h
  · rintro rfl
    cases op <;> rfl

/-- The operator that a token stands for, at a level or above it. -/
def Token.operator? (level : Nat) (t : Token) : Option BinaryOp :=
  t.binary?.filter fun op => level ≤ op.level

theorem Token.operator?_eq_some {level : Nat} {t : Token} {op : BinaryOp} :
    t.operator? level = some op ↔ t = op.token ∧ level ≤ op.level := by
  rw [operator?, Option.filter_eq_some_iff, binary?_eq_some, decide_eq_true_iff]

/-- The operator that a token stands for before an operand. -/
def Token.prefix? : Token → Option UnaryOp
  | .minus => some .negate
  | .bang => some .not
  | _ => none

theorem Token.prefix?_eq_some {t : Token} {op : UnaryOp} : t.prefix? = some op ↔ t = op.token := by
  constructor
  · intro h
    cases t <;> first | (obtain rfl := Option.some.inj h; rfl) | exact nomatch h
  · rintro rfl
    cases op <;> rfl

namespace Expr

/-- Where a parser stands. -/
structure Cursor where
  rest : List Lexeme
  /-- How many levels of nesting are open. -/
  nesting : Nat
  /-- The most levels that have been open at once. -/
  peak : Nat

namespace Cursor

/-- Opens a level of nesting. -/
def enter (c : Cursor) : Cursor :=
  { c with nesting := c.nesting + 1, peak := max c.peak (c.nesting + 1) }

/-- Closes a level of nesting. -/
def leave (c : Cursor) : Cursor := { c with nesting := c.nesting - 1 }

end Cursor

/-- What moves a cursor and comes to a result or an error, or to nothing. -/
abbrev Routine (α : Type) := ExceptT SyntaxError (StateT Cursor Option) α

/-- The parts of an expression that have a routine of their own. -/
inductive Part where
  | expression
  /-- An expression inside its level of nesting. -/
  | conditional
  /-- Prefixed operands, joined by operators of this level and tighter ones. -/
  | chain (level : Nat)
  | prefixed
  /-- An atom with the members selected from it. -/
  | selected
  | atom
  /-- A list after its opening bracket. -/
  | list (close : Token) (expected : Expected)

namespace Part

/-- What is read as a part. -/
abbrev Tree : Part → Type
  | .list .. => List Expr
  | _ => Expr

/-- What is read as a part, and how tall it is said to be. -/
abbrev Result (p : Part) : Type := p.Tree × Nat

/-- How tall it is. -/
def height : (p : Part) → p.Tree → Nat
  | .expression => Expr.height
  | .conditional => Expr.height
  | .chain _ => Expr.height
  | .prefixed => Expr.height
  | .selected => Expr.height
  | .atom => Expr.height
  | .list .. => heightAll

end Part

namespace Routine

variable {α β : Type}

theorem bind_of_ok {m : Routine α} {f : α → Routine β} {c c' : Cursor} {a : α}
    (h : m c = some (.ok a, c')) : (m >>= f) c = f a c' := by
  dsimp only [bind, ExceptT.bind, ExceptT.mk, StateT.bind]
  rw [h]
  rfl

theorem bind_of_error {m : Routine α} {f : α → Routine β} {c c' : Cursor} {e : SyntaxError}
    (h : m c = some (.error e, c')) : (m >>= f) c = some (.error e, c') := by
  dsimp only [bind, ExceptT.bind, ExceptT.mk, StateT.bind]
  rw [h]
  rfl

/-! ## Elementary routines -/

/-- Comes to nothing. -/
def stuck : Routine α := fun _ => none

/-- The next token, which is not read. -/
def peek : Routine (Option Token) := fun c => some (.ok (c.rest.head?.map Lexeme.token), c)

/-- Reads a lexeme, if one is left. -/
def advance : Routine (Option Lexeme) := fun c =>
  some (.ok c.rest.head?, { c with rest := c.rest.tail })

/-- Reads a token, which is to be of some kind. -/
def take (kind : Token → Option α) (expected : Expected) : Routine α := do
  match ← advance with
  | none => throw (.unexpectedEnd expected)
  | some l =>
    match kind l.token with
    | some a => return a
    | none => throw (.unexpected l.token expected l.start)

/-- Reads one token. -/
def expect (token : Token) (expected : Expected) : Routine Unit :=
  take (fun t => if t = token then some () else none) expected

/-- The height of a node over trees of the given height. -/
def wrap (bounds : Bounds) (child : Nat) : Routine Nat := fun c =>
  some (grow bounds child c.rest, c)

/-- Runs a routine one level deeper. The level is closed again whatever it comes to. -/
def nested (bounds : Bounds) (m : Routine α) : Routine α := fun c =>
  if bounds.height ≤ c.nesting then some (.error (.tooDeep (position bounds.finish c.rest)), c)
  else (m c.enter).map fun r => (r.1, r.2.leave)

/-- Rounds of a loop, until one gives a result. -/
def loop (round : α → Routine (α ⊕ β)) : Nat → α → Routine β
  | 0, _ => stuck
  | rounds + 1, a => do
    match ← round a with
    | .inl a => loop round rounds a
    | .inr b => return b

/-- A loop, which has to end before it has made more rounds than there are lexemes. -/
def repeated (round : α → Routine (α ⊕ β)) (a : α) : Routine β := fun c =>
  loop round (c.rest.length + 1) a c

/-! ## One routine for each part -/

section

variable (bounds : Bounds) (call : (p : Part) → Routine p.Result)

/-- A chain, or a choice between two expressions. -/
def conditional : Routine (Expr × Nat) := do
  let test ← call (.chain 0)
  if (← peek) = some .question then
    let _ ← advance
    let yes ← call .expression
    expect .colon .colon
    let no ← call .expression
    let depth ← wrap bounds (max (max test.2 yes.2) no.2)
    return (.conditional test.1 yes.1 no.1, depth)
  else return test

/-- An operator of a level or a tighter one, with its right side. -/
def operation (level : Nat) (left : Expr × Nat) : Routine ((Expr × Nat) ⊕ (Expr × Nat)) := do
  match (← peek).bind (Token.operator? level) with
  | none => return .inr left
  | some op =>
    let _ ← advance
    let right ← call (.chain (op.level + 1))
    let depth ← wrap bounds (max left.2 right.2)
    return .inl (.binary op left.1 right.1, depth)

/-- Prefixed operands and the operators between them. -/
def chain (level : Nat) : Routine (Expr × Nat) := do
  let first ← call .prefixed
  repeated (operation bounds call level) first

/-- An operand with its prefix operators. -/
def prefixed : Routine (Expr × Nat) := do
  match (← peek).bind Token.prefix? with
  | none => call .selected
  | some op =>
    let _ ← advance
    let operand ← nested bounds (call .prefixed)
    let depth ← wrap bounds operand.2
    return (.unary op operand.1, depth)

/-- A member that is selected, if there is one. -/
def selection (object : Expr × Nat) : Routine ((Expr × Nat) ⊕ (Expr × Nat)) := do
  match ← peek with
  | some .dot =>
    let _ ← advance
    let id ← take propertyName? .propertyName
    let depth ← wrap bounds object.2
    return .inl (.member object.1 (.literal (.string id)), depth)
  | some .openBracket =>
    let _ ← advance
    let property ← call .expression
    expect .closeBracket .closeBracket
    let depth ← wrap bounds (max object.2 property.2)
    return .inl (.member object.1 property.1, depth)
  | _ => return .inr object

/-- An atom and the members selected from it. -/
def selected : Routine (Expr × Nat) := do
  let first ← call .atom
  repeated (selection bounds call) first

/-- An atom. -/
def atom : Routine (Expr × Nat) := do
  match ← advance with
  | none => throw (.unexpectedEnd .expression)
  | some l =>
    match l.token with
    | .openParen =>
      let inner ← call .expression
      expect .closeParen .closeParen
      return inner
    | .openBracket =>
      let items ← call (.list .closeBracket .closeBracket)
      let depth ← wrap bounds items.2
      return (.array items.1, depth)
    | .name id =>
      if (← peek) = some .openParen then
        let _ ← advance
        let arguments ← call (.list .closeParen .closeParen)
        let depth ← wrap bounds arguments.2
        return (.call id arguments.1 l.start, depth)
      else return (.name id, 1)
    | t =>
      match t.leaf? with
      | some e => return (e, 1)
      | none => throw (.unexpected t .expression l.start)

/-- An item of a list, and what comes after it. -/
def item (close : Token) (expected : Expected) (read : List Expr × Nat) :
    Routine ((List Expr × Nat) ⊕ (List Expr × Nat)) := do
  let item ← call .expression
  let read := (read.1 ++ [item.1], max read.2 item.2)
  if ← take (separator? close) expected then return .inl read else return .inr read

/-- The items of a list. -/
def list (close : Token) (expected : Expected) : Routine (List Expr × Nat) := do
  if (← peek) = some close then
    let _ ← advance
    return ([], 0)
  else repeated (item call close expected) ([], 0)

/-- What the routine of a part does, by what it calls. -/
def body : (p : Part) → Routine p.Result
  | .expression => nested bounds (call .conditional)
  | .conditional => conditional bounds call
  | .chain level => chain bounds call level
  | .prefixed => prefixed bounds call
  | .selected => selected bounds call
  | .atom => atom bounds call
  | .list close expected => list call close expected

end

/-- The routine of a part, with room for so many calls inside each other. -/
def run (bounds : Bounds) : Nat → (p : Part) → Routine p.Result
  | 0, _ => stuck
  | stack + 1, p => body bounds (run bounds stack) p

/-- An expression that nothing comes after. -/
def whole (bounds : Bounds) (stack : Nat) : Routine Expr := do
  let read ← run bounds stack .expression
  match ← advance with
  | none => return read.1
  | some l => throw (.unexpected l.token .endOfExpression l.start)

end Routine

/-- How many calls inside each other a part may need where so many levels of nesting are left. -/
def Part.frames (levels : Nat) : Part → Nat
  | .expression => 13 * levels + 1
  | .list .. => 13 * levels + 2
  | .atom => 13 * levels + 3
  | .selected => 13 * levels + 4
  | .prefixed => 13 * levels + 5
  | .chain level => 13 * levels + 6 + (BinaryOp.levels - level)
  | .conditional => 13 * levels + 13

end Expr

end Dataflow
