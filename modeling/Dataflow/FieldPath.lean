import Dataflow.Json.Basic
import Dataflow.Text.Word

/-! # Field paths

A field path names a place inside a JSON value as a list of segments: `a.b`, `a[0]`, `a["b c"]`.
A backslash takes the next character literally.

`FieldPath.split` reads the text of a path.  At any point of the text the reader stands in one of
four places, and each has its function: in a dotted segment, behind a closed bracket, in a bare
bracket or in a quoted one.  A dot after a closed bracket only separates, and so a path ends in an
empty segment exactly when it is empty or ends in a dot. -/

namespace Dataflow

/-- Why a text is not a field path. -/
inductive PathError where
  | danglingEscape
  | unterminatedBracket
  | unclosedQuote
  | unmatchedBracket
deriving DecidableEq, Repr

/-- The wording of an error. -/
def PathError.reason : PathError → String
  | .danglingEscape => "dangling escape"
  | .unterminatedBracket => "unterminated bracket"
  | .unclosedQuote => "expected ']' after quoted segment"
  | .unmatchedBracket => "unmatched ']'"

namespace FieldPath

/-- Puts a segment before those read from the rest of the path. -/
def cons (segment : List Char) (rest : Except PathError (List String)) :
    Except PathError (List String) :=
  rest.map (String.ofList segment :: ·)

mutual

/-- Reads on in a dotted segment of which `segment` has been read. -/
def dotted (segment : List Char) : List Char → Except PathError (List String)
  | [] => cons segment (.ok [])
  | ['\\'] => .error .danglingEscape
  | '\\' :: c :: rest => dotted (segment ++ [c]) rest
  | '.' :: rest => cons segment (dotted [] rest)
  | '[' :: rest => if segment.isEmpty then opened rest else cons segment (opened rest)
  | ']' :: _ => .error .unmatchedBracket
  | c :: rest => dotted (segment ++ [c]) rest

/-- Reads on behind a closed bracket. -/
def closed : List Char → Except PathError (List String)
  | [] => .ok []
  | ['\\'] => .error .danglingEscape
  | '\\' :: c :: rest => dotted [c] rest
  | '.' :: rest => dotted [] rest
  | '[' :: rest => opened rest
  | ']' :: _ => .error .unmatchedBracket
  | c :: rest => dotted [c] rest

/-- Reads on behind an opening bracket. -/
def opened : List Char → Except PathError (List String)
  | [] => .error .unterminatedBracket
  | '"' :: rest => quotedIn '"' [] rest
  | '\'' :: rest => quotedIn '\'' [] rest
  | ['\\'] => .error .danglingEscape
  | '\\' :: c :: rest => bare [c] rest
  | ']' :: rest => cons [] (closed rest)
  | c :: rest => bare [c] rest

/-- Reads on in a bracket without quotes. -/
def bare (segment : List Char) : List Char → Except PathError (List String)
  | [] => .error .unterminatedBracket
  | ['\\'] => .error .danglingEscape
  | '\\' :: c :: rest => bare (segment ++ [c]) rest
  | ']' :: rest => cons segment (closed rest)
  | c :: rest => bare (segment ++ [c]) rest

/-- Reads on between quotes in a bracket. -/
def quotedIn (quote : Char) (segment : List Char) : List Char → Except PathError (List String)
  | [] => .error .unterminatedBracket
  | ['\\'] => .error .danglingEscape
  | '\\' :: c :: rest => quotedIn quote (segment ++ [c]) rest
  | c :: rest =>
    if c = quote then
      match rest with
      | ']' :: rest => cons segment (closed rest)
      | _ => .error .unclosedQuote
    else quotedIn quote (segment ++ [c]) rest

end

/-- The segments of a path. -/
def split (path : String) : Except PathError (List String) := dotted [] path.toList

end FieldPath

namespace Json

/-- One step into a value: the member of an object, or the item of an array whose index the
segment spells. -/
def step? (v : Json) (segment : String) : Option Json :=
  match v with
  | .object members => find segment members
  | .array items =>
    match Text.word? segment.toList with
    | some i => items[i]?
    | none => none
  | _ => none

/-- The value at the end of a path, null if there is none. -/
def follow : List String → Json → Json
  | [], v => v
  | segment :: rest, v =>
    match v.step? segment with
    | some next => next.follow rest
    | none => .null

end Json

end Dataflow
