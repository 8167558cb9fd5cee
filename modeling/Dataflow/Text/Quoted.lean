import Dataflow.Text.PrintTable
import Dataflow.Text.CaseTable

/-! # Quoted text for messages

A text shown between double quotes, with an escape for every character that would not stand out
there: the quote and the backslash, line breaks and tabs, characters that attach to their
neighbour, and characters that do not print. -/

namespace Dataflow.Text

/-- The escape that names a character by its code. -/
def codeEscape (c : Char) : List Char :=
  ['\\', 'u', '\x7b'] ++ Nat.toDigits 16 c.toNat ++ ['\x7d']

/-- Whether a character beyond ASCII is shown by its code. -/
def isHidden (c : Char) : Bool :=
  inRanges extenderRanges c.toNat || inRanges unprintableRanges c.toNat

/-- How a character is shown. -/
def showChar (c : Char) : List Char :=
  match c with
  | '\x00' => ['\\', '0']
  | '\t' => ['\\', 't']
  | '\r' => ['\\', 'r']
  | '\n' => ['\\', 'n']
  | '"' => ['\\', '"']
  | '\\' => ['\\', '\\']
  | c => if isHidden c then codeEscape c else [c]

/-- The text in quotes. -/
def quoted (s : String) : String :=
  String.ofList (['"'] ++ s.toList.flatMap showChar ++ ['"'])

end Dataflow.Text
