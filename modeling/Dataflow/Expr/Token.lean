import Dataflow.Decimal.Layout
import Dataflow.Text.Quoted

/-! # Tokens of the expression language

A token is a word, a symbol, a number, a text or a name.  A `Lexeme` is a token together with the
bytes of the source that it takes up. -/

namespace Dataflow

/-- A token. -/
inductive Token where
  | trueWord
  | falseWord
  | nullWord
  | openParen
  | closeParen
  | openBracket
  | closeBracket
  | comma
  | dot
  | question
  | colon
  | plus
  | minus
  | star
  | slash
  | percent
  | less
  | lessEq
  | greater
  | greaterEq
  | equal
  | notEqual
  | both
  | either
  | bang
  | number (value : Float)
  | text (value : String)
  | name (id : String)
deriving DecidableEq

/-- How a token is shown in a message. -/
def Token.spelling : Token → String
  | .trueWord => "true"
  | .falseWord => "false"
  | .nullWord => "null"
  | .openParen => "("
  | .closeParen => ")"
  | .openBracket => "["
  | .closeBracket => "]"
  | .comma => ","
  | .dot => "."
  | .question => "?"
  | .colon => ":"
  | .plus => "+"
  | .minus => "-"
  | .star => "*"
  | .slash => "/"
  | .percent => "%"
  | .less => "<"
  | .lessEq => "<="
  | .greater => ">"
  | .greaterEq => ">="
  | .equal => "=="
  | .notEqual => "!="
  | .both => "&&"
  | .either => "||"
  | .bang => "!"
  | .number x => Layout.plain.writeFloat x
  | .text s => Text.quoted s
  | .name id => id

/-- A token and the half-open range of bytes it takes up. -/
structure Lexeme where
  token : Token
  start : Nat
  stop : Nat
deriving DecidableEq

end Dataflow
