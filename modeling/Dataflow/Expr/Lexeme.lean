import Dataflow.Decimal.Reading
import Dataflow.Expr.SyntaxError

/-! # Splitting expression text into lexemes

Between tokens stand blanks, tabs and line ends.  At any other character the longest token is
taken: `token? c cs` gives the token that starts with `c` and the number of characters of `cs`
that belong to it.  If none starts there the text is refused; an unfinished string is quoted up
to where it stopped being one. -/

namespace Dataflow

namespace Lexeme

/-- Whether a character may stand between tokens. -/
def isBlank (c : Char) : Bool := c == ' ' || c == '\t' || c == '\r' || c == '\n'

/-- Whether a name may start with the character. -/
def isNameStart (c : Char) : Bool := c.isAlpha || c == '_' || c == '$'

/-- Whether a name may go on with the character. -/
def isNameChar (c : Char) : Bool := isNameStart c || c.isDigit

/-! ## Lengths -/

/-- The number of leading characters of a class. -/
def run (p : Char → Bool) (cs : List Char) : Nat := (cs.takeWhile p).length

/-- The length of a fraction: a point and at least one digit. -/
def fractionLength : List Char → Nat
  | '.' :: rest => if run Char.isDigit rest = 0 then 0 else run Char.isDigit rest + 1
  | _ => 0

/-- The length of an exponent: a letter, perhaps a sign, and at least one digit. -/
def exponentLength : List Char → Nat
  | c :: rest =>
    if c = 'e' ∨ c = 'E' then
      match rest with
      | s :: digits =>
        if s = '+' ∨ s = '-' then
          if run Char.isDigit digits = 0 then 0 else run Char.isDigit digits + 2
        else if run Char.isDigit rest = 0 then 0 else run Char.isDigit rest + 1
      | [] => 0
    else 0
  | [] => 0

/-- The length of what follows the first digit of a number. -/
def numberLength (cs : List Char) : Nat :=
  let whole := run Char.isDigit cs
  let fraction := fractionLength (cs.drop whole)
  whole + fraction + exponentLength (cs.drop (whole + fraction))

/-- The length of what follows the leading point of a number, zero if it is not one. -/
def pointLength (cs : List Char) : Nat :=
  let digits := run Char.isDigit cs
  if digits = 0 then 0 else digits + exponentLength (cs.drop digits)

/-- The length of the rest of a string up to and with its closing quote.  A backslash takes the
next character with it, but not a line end. -/
def stringLength? (quote : Char) : List Char → Option Nat
  | [] => none
  | ['\\'] => none
  | '\\' :: c :: rest =>
    if c = '\n' then none else (stringLength? quote rest).map (· + 2)
  | c :: rest => if c = quote then some 1 else (stringLength? quote rest).map (· + 1)

/-- The length of what could stand in a string, where there is no closing quote. -/
def unfinishedLength : List Char → Nat
  | [] => 0
  | ['\\'] => 0
  | '\\' :: c :: rest => if c = '\n' then 0 else unfinishedLength rest + 2
  | _ :: rest => unfinishedLength rest + 1

/-! ## Values -/

/-- The character that an escape stands for. -/
def unescapeChar : Char → Char
  | 'n' => '\n'
  | 't' => '\t'
  | 'r' => '\r'
  | '0' => '\x00'
  | c => c

/-- Resolves the escapes of a string. -/
def unescape : List Char → List Char
  | '\\' :: c :: rest => unescapeChar c :: unescape rest
  | c :: rest => c :: unescape rest
  | [] => []

/-- The value of the text of a number. -/
def numberValue (text : List Char) : Float :=
  match Decimal.ofText? text with
  | some d => d.toFloat
  | none => 0

/-- The token of the text of a name. -/
def wordToken (text : List Char) : Token :=
  match String.ofList text with
  | "true" => .trueWord
  | "false" => .falseWord
  | "null" => .nullWord
  | id => .name id

/-! ## Tokens -/

/-- The symbol that starts with `c`, and how many characters of `cs` belong to it. -/
def symbol? (c : Char) (cs : List Char) : Option (Token × Nat) :=
  match c, cs with
  | '(', _ => some (.openParen, 0)
  | ')', _ => some (.closeParen, 0)
  | '[', _ => some (.openBracket, 0)
  | ']', _ => some (.closeBracket, 0)
  | ',', _ => some (.comma, 0)
  | '.', _ => some (.dot, 0)
  | '?', _ => some (.question, 0)
  | ':', _ => some (.colon, 0)
  | '+', _ => some (.plus, 0)
  | '-', _ => some (.minus, 0)
  | '*', _ => some (.star, 0)
  | '/', _ => some (.slash, 0)
  | '%', _ => some (.percent, 0)
  | '<', '=' :: _ => some (.lessEq, 1)
  | '<', _ => some (.less, 0)
  | '>', '=' :: _ => some (.greaterEq, 1)
  | '>', _ => some (.greater, 0)
  | '=', '=' :: _ => some (.equal, 1)
  | '!', '=' :: _ => some (.notEqual, 1)
  | '!', _ => some (.bang, 0)
  | '&', '&' :: _ => some (.both, 1)
  | '|', '|' :: _ => some (.either, 1)
  | _, _ => none

/-- The token that starts with `c`, and how many characters of `cs` belong to it. -/
def token? (c : Char) (cs : List Char) : Option (Token × Nat) :=
  if isNameStart c then
    let n := run isNameChar cs
    some (wordToken (c :: cs.take n), n)
  else if c.isDigit then
    let n := numberLength cs
    some (.number (numberValue (c :: cs.take n)), n)
  else if c = '"' ∨ c = '\'' then
    (stringLength? c cs).map fun n => (.text (String.ofList (unescape (cs.take (n - 1)))), n)
  else if c = '.' ∧ 0 < pointLength cs then
    let n := pointLength cs
    some (.number (numberValue (c :: cs.take n)), n)
  else symbol? c cs

/-- The part of the text that an error quotes where no token starts. -/
def refused (c : Char) (cs : List Char) : String :=
  if c = '"' ∨ c = '\'' then String.ofList (c :: cs.take (unfinishedLength cs))
  else String.singleton c

/-- The number of bytes of a text. -/
def byteLength : List Char → Nat
  | [] => 0
  | c :: cs => c.utf8Size + byteLength cs

/-- The lexemes of a text that starts at the given offset. -/
def scanFrom (offset : Nat) : List Char → Except SyntaxError (List Lexeme)
  | [] => .ok []
  | c :: cs =>
    if isBlank c then scanFrom (offset + c.utf8Size) cs
    else
      match token? c cs with
      | none => .error (.unrecognized (refused c cs) offset)
      | some (token, n) =>
        let stop := offset + byteLength (c :: cs.take n)
        (scanFrom stop (cs.drop n)).map (⟨token, offset, stop⟩ :: ·)
termination_by cs => cs.length
decreasing_by
  · simp only [List.length_cons]
    omega
  · simp only [List.length_cons, List.length_drop]
    omega

/-- The lexemes of a source text. -/
def scan (source : String) : Except SyntaxError (List Lexeme) := scanFrom 0 source.toList

end Lexeme

end Dataflow
