import Dataflow.Text.CaseTable

/-! # Upper and lower case

`upper` and `lower` map every character to its full Unicode counterpart, which may be several
characters.  The one context they look at is that of a capital sigma: at the end of a word its
small form is the final one. -/

namespace Dataflow.Text

/-- The counterpart of a character by the runs and expansions of one direction. -/
def mapChar (runs : List CaseRun) (expansions : List (Nat × List Nat)) (c : Char) : List Char :=
  match expansions.find? fun e => e.1 == c.toNat with
  | some (_, codes) => codes.map Char.ofNat
  | none =>
    match runs.findSome? fun run => run.apply? c.toNat with
    | some code => [Char.ofNat code]
    | none => [c]

/-- The upper-case counterpart of a character. -/
def upperChar (c : Char) : List Char :=
  if c.toNat < 0x80 then [c.toUpper] else mapChar upperRuns upperExpansions c

/-- The lower-case counterpart of a character, without regard to its neighbours. -/
def lowerChar (c : Char) : List Char :=
  if c.toNat < 0x80 then [c.toLower] else mapChar lowerRuns lowerExpansions c

/-- Whether the first of the characters that is not ignorable is a letter with case. -/
def meetsCased (cs : List Char) : Bool :=
  match cs.dropWhile fun c => inRanges caseIgnorableRanges c.toNat with
  | c :: _ => inRanges casedRanges c.toNat
  | [] => false

/-- The small form of a capital sigma between the characters before it, last first, and those
after it. -/
def lowerSigma (before after : List Char) : Char :=
  if meetsCased before && !meetsCased after then 'ς' else 'σ'

/-- Lower case of the characters that follow `before`, which comes last first. -/
def lowerAfter (before : List Char) : List Char → List Char
  | [] => []
  | c :: rest =>
    (if c = 'Σ' then [lowerSigma before rest] else lowerChar c) ++ lowerAfter (c :: before) rest

/-- The text in upper case. -/
def upper (s : String) : String := String.ofList (s.toList.flatMap upperChar)

/-- The text in lower case. -/
def lower (s : String) : String := String.ofList (lowerAfter [] s.toList)

end Dataflow.Text
