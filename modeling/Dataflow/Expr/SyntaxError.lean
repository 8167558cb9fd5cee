import Dataflow.Expr.Token

/-! # Errors in expression text

Why a text is refused, and where.  Offsets count bytes of the source. -/

namespace Dataflow

/-- What the grammar wants at a place. -/
inductive Expected where
  | endOfExpression
  | colon
  | propertyName
  | closeBracket
  | closeParen
  | expression
deriving DecidableEq, Repr

/-- How a wanted thing is shown in a message. -/
def Expected.spelling : Expected → String
  | .endOfExpression => "end of expression"
  | .colon => "`:`"
  | .propertyName => "property name after `.`"
  | .closeBracket => "`]`"
  | .closeParen => "`)`"
  | .expression => "expression"

/-- The deepest expression tree, and the deepest nesting of the grammar, that is accepted. -/
def maxDepth : Nat := 128

/-- Why expression text is refused. -/
inductive SyntaxError where
  /-- No token starts here. -/
  | unrecognized (text : String) (offset : Nat)
  | unexpected (found : Token) (expected : Expected) (offset : Nat)
  | unexpectedEnd (expected : Expected)
  | unknownFunction (name : String) (offset : Nat)
  | tooDeep (offset : Nat)
deriving DecidableEq

namespace SyntaxError

/-- Where the error is; the end of the text has no offset. -/
def offset? : SyntaxError → Option Nat
  | .unrecognized _ offset => some offset
  | .unexpected _ _ offset => some offset
  | .unexpectedEnd _ => none
  | .unknownFunction _ offset => some offset
  | .tooDeep offset => some offset

/-- The wording of an error. -/
def message : SyntaxError → String
  | .unrecognized text offset => s!"unrecognized input `{text}` at offset {offset}"
  | .unexpected found expected offset =>
    s!"expected {expected.spelling}, found `{found.spelling}` at offset {offset}"
  | .unexpectedEnd expected => s!"expected {expected.spelling}, found end of input"
  | .unknownFunction name offset => s!"unknown function `{name}` at offset {offset}"
  | .tooDeep offset => s!"expression nests deeper than {maxDepth} levels at offset {offset}"

end SyntaxError

end Dataflow
