import Dataflow.Expr.Lexeme
import Dataflow.Expr.Syntax

/-! # Reading expressions

The grammar, loosest first:

* an expression is a chain, or `chain ? expression : expression`;
* a chain has six levels of left-associative operators, `or` and `and`, then equality, order,
  sums and products, over prefixed operands;
* a prefixed operand is `-` or `!` before one, or an atom followed by any number of `.name` and
  `[expression]`;
* an atom is a number, a text, a word, a name, a call, a list or an expression in parentheses.

A `Rule` reads one of these from the front of a list of lexemes and leaves fewer of them.  Two
limits keep trees and grammar shallow: `levels` counts how many expressions and prefix operators
may still open inside each other, and `grow` refuses a tree that gets taller than the `Bounds`
allow.  Both are `maxDepth` where a text is read. -/

namespace Dataflow

namespace Expr

/-- What a text is read within. -/
structure Bounds where
  /-- The number of bytes of the text. -/
  finish : Nat
  /-- How tall a tree may get. -/
  height : Nat

/-- What a rule has read when fewer than `bound` lexemes are left. -/
structure Parsed (bound : Nat) where
  expr : Expr
  /-- The height of the tree. -/
  depth : Nat
  rest : List Lexeme
  shorter : rest.length < bound

/-- The items of a list, up to and with its closing bracket. -/
structure ParsedList (bound : Nat) where
  items : List Expr
  /-- The height of the tallest item. -/
  depth : Nat
  rest : List Lexeme
  shorter : rest.length < bound

/-- Reads part of an expression from the front of a list of lexemes. -/
abbrev Rule := (input : List Lexeme) → Except SyntaxError (Parsed input.length)

/-- Where the next lexeme starts, or the text ends. -/
def position (finish : Nat) : List Lexeme → Nat
  | [] => finish
  | l :: _ => l.start

/-- The height of a node over trees of the given height. -/
def grow (bounds : Bounds) (child : Nat) (rest : List Lexeme) : Except SyntaxError Nat :=
  if child < bounds.height then .ok (child + 1)
  else .error (.tooDeep (position bounds.finish rest))

/-- The error at a place where something else is wanted. -/
def unexpected (expected : Expected) : List Lexeme → SyntaxError
  | [] => .unexpectedEnd expected
  | l :: _ => .unexpected l.token expected l.start

/-- Reads one token. -/
def expect (token : Token) (expected : Expected) (input : List Lexeme) :
    Except SyntaxError { rest : List Lexeme // rest.length < input.length } :=
  match input with
  | [] => .error (unexpected expected [])
  | l :: rest =>
    if l.token = token then .ok ⟨rest, by simp⟩ else .error (unexpected expected (l :: rest))

/-! ## Atoms and what follows them -/

/-- The items of a list after the first, which is not missing. -/
def items (expression : Rule) (close : Token) (expected : Expected) (bound : Nat)
    (read : List Expr) (depth : Nat) (input : List Lexeme) (h : input.length ≤ bound) :
    Except SyntaxError (ParsedList bound) :=
  match expression input with
  | .error e => .error e
  | .ok item =>
    match hr : item.rest with
    | [] => .error (unexpected expected [])
    | l :: rest =>
      have hl : rest.length + 1 < input.length := by
        have := item.shorter
        rw [hr] at this
        simpa using this
      if l.token = .comma then
        items expression close expected bound (read ++ [item.expr]) (max depth item.depth) rest
          (by omega)
      else if l.token = close then
        .ok ⟨read ++ [item.expr], max depth item.depth, rest, by omega⟩
      else .error (unexpected expected (l :: rest))
termination_by input.length

/-- A list after its opening bracket. -/
def list (expression : Rule) (close : Token) (expected : Expected) (input : List Lexeme) :
    Except SyntaxError (ParsedList input.length) :=
  match input with
  | [] => items expression close expected 0 [] 0 [] (by simp)
  | l :: rest =>
    if l.token = close then .ok ⟨[], 0, rest, by simp⟩
    else items expression close expected _ [] 0 (l :: rest) (by simp)

/-- An atom. -/
def atom (bounds : Bounds) (expression : Rule) : Rule
  | [] => .error (unexpected .expression [])
  | l :: rest =>
    let leaf (e : Expr) : Except SyntaxError (Parsed (rest.length + 1)) :=
      .ok ⟨e, 1, rest, by simp⟩
    match l.token with
    | .number x => leaf (.literal (Json.ofFloat x))
    | .text s => leaf (.literal (.string s))
    | .trueWord => leaf (.literal (.bool true))
    | .falseWord => leaf (.literal (.bool false))
    | .nullWord => leaf (.literal .null)
    | .openParen => do
      let inner ← expression rest
      let after ← expect .closeParen .closeParen inner.rest
      return ⟨inner.expr, inner.depth, after.1, by
        have := inner.shorter
        have := after.2
        simp only [List.length_cons]
        omega⟩
    | .openBracket => do
      let items ← list expression .closeBracket .closeBracket rest
      let depth ← grow bounds items.depth items.rest
      return ⟨.array items.items, depth, items.rest, by
        have := items.shorter
        simp only [List.length_cons]
        omega⟩
    | .name id =>
      if rest.head?.map Lexeme.token = some .openParen then do
        let arguments ← list expression .closeParen .closeParen rest.tail
        let depth ← grow bounds arguments.depth arguments.rest
        return ⟨.call id arguments.items l.start, depth, arguments.rest, by
          have := arguments.shorter
          simp only [List.length_tail, List.length_cons] at this ⊢
          omega⟩
      else leaf (.name id)
    | _ => .error (unexpected .expression (l :: rest))

/-- The members selected from `object`: any number of `.name` and `[expression]`. -/
def members (bounds : Bounds) (expression : Rule) (bound : Nat) (object : Expr) (depth : Nat)
    (input : List Lexeme) (h : input.length < bound) : Except SyntaxError (Parsed bound) :=
  match input with
  | [] => .ok ⟨object, depth, [], h⟩
  | l :: rest =>
    if l.token = .dot then
      match rest with
      | [] => .error (unexpected .propertyName [])
      | p :: rest =>
        match p.token with
        | .name id =>
          match grow bounds depth rest with
          | .error e => .error e
          | .ok depth =>
            members bounds expression bound (.member object (.literal (.string id))) depth rest
              (by simp only [List.length_cons] at h; omega)
        | _ => .error (unexpected .propertyName (p :: rest))
    else if l.token = .openBracket then
      match expression rest with
      | .error e => .error e
      | .ok property =>
        match expect .closeBracket .closeBracket property.rest with
        | .error e => .error e
        | .ok after =>
          have hp := property.shorter
          have ha := after.2
          match grow bounds (max depth property.depth) after.1 with
          | .error e => .error e
          | .ok depth =>
            members bounds expression bound (.member object property.expr) depth after.1
              (by simp only [List.length_cons] at h; omega)
    else .ok ⟨object, depth, l :: rest, h⟩
termination_by input.length
decreasing_by all_goals (simp only [List.length_cons]; omega)

/-- An atom and the members selected from it. -/
def selected (bounds : Bounds) (expression : Rule) : Rule := fun input => do
  let first ← atom bounds expression input
  members bounds expression input.length first.expr first.depth first.rest first.shorter

/-! ## Operators -/

/-- The operator that a token is at some level. -/
abbrev Operators := Token → Option BinaryOp

/-- The levels of operators, loosest first. -/
def operatorLevels : List Operators := [
  fun | .either => some .or | _ => none,
  fun | .both => some .and | _ => none,
  fun | .equal => some .eq | .notEqual => some .ne | _ => none,
  fun | .less => some .lt | .lessEq => some .le | .greater => some .gt | .greaterEq => some .ge
      | _ => none,
  fun | .plus => some .add | .minus => some .sub | _ => none,
  fun | .star => some .mul | .slash => some .div | .percent => some .rem | _ => none]

/-- Operands joined to `left` by the operators of one level, grouped to the left. -/
def joined (bounds : Bounds) (operand : Rule) (operators : Operators) (bound : Nat) (left : Expr)
    (depth : Nat) (input : List Lexeme) (h : input.length < bound) :
    Except SyntaxError (Parsed bound) :=
  match input with
  | [] => .ok ⟨left, depth, [], h⟩
  | l :: rest =>
    match operators l.token with
    | none => .ok ⟨left, depth, l :: rest, h⟩
    | some op =>
      match operand rest with
      | .error e => .error e
      | .ok right =>
        have hr := right.shorter
        match grow bounds (max depth right.depth) right.rest with
        | .error e => .error e
        | .ok depth =>
          joined bounds operand operators bound (.binary op left right.expr) depth right.rest
            (by simp only [List.length_cons] at h; omega)
termination_by input.length
decreasing_by all_goals (simp only [List.length_cons]; omega)

/-- One level of operators over the operands of the next. -/
def level (bounds : Bounds) (operators : Operators) (operand : Rule) : Rule := fun input => do
  let first ← operand input
  joined bounds operand operators input.length first.expr first.depth first.rest first.shorter

/-- All levels of operators over prefixed operands. -/
def chain (bounds : Bounds) (prefixed : Rule) : Rule :=
  operatorLevels.foldr (level bounds) prefixed

/-- A chain, or a choice between two expressions. -/
def choice (bounds : Bounds) (chain expression : Rule) : Rule := fun input => do
  let test ← chain input
  match hr : test.rest with
  | [] => return test
  | l :: rest =>
    if l.token = .question then do
      let yes ← expression rest
      let after ← expect .colon .colon yes.rest
      let no ← expression after.1
      let depth ← grow bounds (max (max test.depth yes.depth) no.depth) no.rest
      return ⟨.conditional test.expr yes.expr no.expr, depth, no.rest, by
        have ht := test.shorter
        rw [hr, List.length_cons] at ht
        have hy := yes.shorter
        have ha := after.2
        have hn := no.shorter
        omega⟩
    else return test

/-- An operand with its prefix operators; `inner` reads the operand of one. -/
def withPrefixes (bounds : Bounds) (inner selected : Rule) : Rule
  | [] => selected []
  | l :: rest =>
    let apply (op : UnaryOp) : Except SyntaxError (Parsed (rest.length + 1)) := do
      let operand ← inner rest
      let depth ← grow bounds operand.depth operand.rest
      return ⟨.unary op operand.expr, depth, operand.rest, by
        have := operand.shorter
        omega⟩
    match l.token with
    | .minus => apply .negate
    | .bang => apply .not
    | _ => selected (l :: rest)

/-! ## Nesting -/

/-- What is read where nothing more may open. -/
def exhausted (bounds : Bounds) : Rule :=
  fun input => .error (.tooDeep (position bounds.finish input))

mutual

/-- An expression, with `levels` levels of nesting left for it and what is inside. -/
def expression (bounds : Bounds) (levels : Nat) : Rule :=
  match levels with
  | 0 => exhausted bounds
  | levels + 1 => choice bounds (chain bounds (prefixed bounds levels)) (expression bounds levels)
termination_by (levels, 0)

/-- A prefixed operand, with `levels` levels of nesting left for what is inside. -/
def prefixed (bounds : Bounds) (levels : Nat) : Rule :=
  withPrefixes bounds
    (match levels with
      | 0 => exhausted bounds
      | levels + 1 => prefixed bounds levels)
    (selected bounds (expression bounds levels))
termination_by (levels, 1)

end

/-- The expression that a list of lexemes spells. -/
def ofLexemes (bounds : Bounds) (levels : Nat) (input : List Lexeme) :
    Except SyntaxError Expr := do
  let whole ← expression bounds levels input
  match whole.rest with
  | [] => return whole.expr
  | l :: rest => throw (unexpected .endOfExpression (l :: rest))

/-- Reads an expression. -/
def parse (source : String) : Except SyntaxError Expr := do
  ofLexemes ⟨source.utf8ByteSize, maxDepth⟩ maxDepth (← Lexeme.scan source)

end Expr

end Dataflow
