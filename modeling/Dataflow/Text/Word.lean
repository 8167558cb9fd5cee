/-! # Reading an unsigned word

An unsigned 64-bit number in decimal, with an optional plus sign and any number of leading
zeros. -/

namespace Dataflow.Text

/-- Why a text is not an unsigned word. -/
inductive WordError where
  | empty
  | invalidDigit
  | tooLarge
deriving DecidableEq, Repr

/-- The wording of an error. -/
def WordError.message : WordError → String
  | .empty => "cannot parse integer from empty string"
  | .invalidDigit => "invalid digit found in string"
  | .tooLarge => "number too large to fit in target type"

/-- Appends digits to a word; the first character that is no digit or does not fit decides the
error. -/
def wordDigits (n : Nat) : List Char → Except WordError Nat
  | [] => .ok n
  | c :: rest =>
    if c.isDigit then
      let next := 10 * n + (c.toNat - '0'.toNat)
      if next < 0x10000000000000000 then wordDigits next rest else .error .tooLarge
    else .error .invalidDigit

/-- Reads an unsigned word. -/
def readWord : List Char → Except WordError Nat
  | [] => .error .empty
  | ['+'] => .error .invalidDigit
  | '+' :: rest => wordDigits 0 rest
  | cs => wordDigits 0 cs

/-- The word that a text holds, if it holds one. -/
def word? (cs : List Char) : Option Nat := (readWord cs).toOption

end Dataflow.Text
