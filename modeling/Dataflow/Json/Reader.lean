import Dataflow.Table
import Dataflow.Json.Basic

/-! # Reading JSON text

Reading has two steps.  `Source.ofText?` checks the grammar and keeps what was written: members
may repeat, a number may be out of range and an escape may be half of a surrogate pair.
`Source.toJson?` makes a value of it, or refuses: containers may nest 127 deep, numbers must be
finite, and of members with one name the last counts, in the place of the first.

Parts of a text that nobody asks for need only the first step. -/

namespace Dataflow

/-- A number as written. -/
structure Numeral where
  negative : Bool
  whole : List Char
  fraction : List Char
  /-- The exponent, and whether the number has a fraction or an exponent at all. -/
  exponent : Int
  isInteger : Bool

namespace Numeral

/-- Digits are taken into the significand while it fits 64 bits. -/
def wordMax : Nat := 0xFFFFFFFFFFFFFFFF

/-- Appends a digit, unless the word overflows. -/
def push? (n : Nat) (c : Char) : Option Nat :=
  let next := 10 * n + (c.toNat - '0'.toNat)
  if next ≤ wordMax then some next else none

/-- Appends digits up to the first that overflows, and counts those left. -/
def pushAll (n : Nat) : List Char → Nat × Nat
  | [] => (n, 0)
  | c :: rest =>
    match push? n c with
    | some next => pushAll next rest
    | none => (n, rest.length + 1)

/-- The largest power of ten that is a binary64 number has this exponent. -/
def maxPower : Nat := 308

/-- The binary64 number nearest to a power of ten. -/
def powerOfTen (exponent : Nat) : Float := (⟨1, exponent⟩ : Decimal).toFloat

/-- Divides by a power of ten, in steps that stay in range. -/
def divide (x : Float) (places : Nat) : Float :=
  if places ≤ maxPower then x / powerOfTen places
  else if x == 0 then x
  else divide (x / powerOfTen maxPower) (places - maxPower)
termination_by places
decreasing_by
  unfold maxPower at *
  omega

/-- The significand scaled by a power of ten, rounding once for the significand and once for the
scaling; none when the result is too large. -/
def scale? (significand : Nat) (exponent : Int) : Option Float :=
  let x := significand.toUInt64.toFloat
  if exponent < 0 then some (divide x exponent.natAbs)
  else if significand = 0 then some x
  else if exponent ≤ maxPower then
    let y := x * powerOfTen exponent.toNat
    if y.isInf then none else some y
  else none

/-- The number meant: an integer if it is written as one and fits 64 bits, else a float.  A whole
number beyond 64 bits and a negative zero are floats. -/
def toNumber? (n : Numeral) : Option Number :=
  let (whole, dropped) := pushAll 0 n.whole
  let signed (x : Float) : Float := if n.negative then -x else x
  if n.isInteger && dropped == 0 then
    let value : Int := if n.negative then -whole else whole
    if n.negative && whole == 0 then Number.ofFinite? (signed 0)
    else
      match Number.ofInt? value with
      | some i => some i
      | none => Number.ofFinite? (signed whole.toUInt64.toFloat)
  else
    let (significand, unused) := pushAll whole n.fraction
    let places := n.fraction.length - unused
    (scale? significand (n.exponent + dropped - places)).bind fun x => Number.ofFinite? (signed x)

end Numeral

/-- A JSON text as written. -/
inductive Source where
  | null
  | bool (value : Bool)
  | number (numeral : Numeral)
  /-- A string; none when it has half of a surrogate pair. -/
  | string (value : Option String)
  | array (items : List Source)
  | object (members : List (Option String × Source))

namespace Source

/-! ## Grammar -/

/-- The characters between tokens. -/
def isBlank (c : Char) : Bool := c == ' ' || c == '\n' || c == '\t' || c == '\r'

/-- Skips blanks. -/
def skip (cs : List Char) : List Char := cs.dropWhile isBlank

/-- The value of a hexadecimal digit. -/
def hexValue? (c : Char) : Option Nat :=
  if '0' ≤ c && c ≤ '9' then some (c.toNat - '0'.toNat)
  else if 'a' ≤ c && c ≤ 'f' then some (c.toNat - 'a'.toNat + 10)
  else if 'A' ≤ c && c ≤ 'F' then some (c.toNat - 'A'.toNat + 10)
  else none

/-- Four hexadecimal digits. -/
def hexWord? (a b c d : Char) : Option Nat := do
  let a ← hexValue? a
  let b ← hexValue? b
  let c ← hexValue? c
  let d ← hexValue? d
  return ((a * 16 + b) * 16 + c) * 16 + d

/-- A unit of a string: a character or half of a surrogate pair. -/
inductive Unit16 where
  | char (c : Char)
  | half (word : Nat)

/-- The unit of a code written in hexadecimal. -/
def unitOfWord (w : Nat) : Unit16 :=
  if 0xD800 ≤ w ∧ w < 0xE000 then .half w else .char (Char.ofNat w)

/-- The character that a backslash and this letter stand for. -/
def escape? : Char → Option Char
  | '"' => some '"'
  | '\\' => some '\\'
  | '/' => some '/'
  | 'b' => some '\x08'
  | 'f' => some '\x0c'
  | 'n' => some '\n'
  | 'r' => some '\r'
  | 't' => some '\t'
  | _ => none

/-- The units of a string after its opening quote, last first, and what follows the closing one. -/
def stringUnits (read : List Unit16) : List Char → Option (List Unit16 × List Char)
  | [] => none
  | '"' :: rest => some (read, rest)
  | '\\' :: 'u' :: a :: b :: c :: d :: rest =>
    match hexWord? a b c d with
    | some w => stringUnits (unitOfWord w :: read) rest
    | none => none
  | '\\' :: c :: rest =>
    match escape? c with
    | some e => stringUnits (.char e :: read) rest
    | none => none
  | c :: rest => if c.toNat < 0x20 then none else stringUnits (.char c :: read) rest

/-- Joins surrogate pairs; none when a half stands alone.  The units come last first. -/
def joinUnits (joined : List Char) : List Unit16 → Option (List Char)
  | [] => some joined
  | .char c :: rest => joinUnits (c :: joined) rest
  | .half low :: .half high :: rest =>
    if 0xDC00 ≤ low ∧ high < 0xDC00 then
      joinUnits (Char.ofNat (0x10000 + (high - 0xD800) * 0x400 + (low - 0xDC00)) :: joined) rest
    else none
  | .half _ :: _ => none

/-- A string after its opening quote, and what follows it. -/
def string? (cs : List Char) : Option (Option String × List Char) :=
  (stringUnits [] cs).map fun (units, rest) => ((joinUnits [] units).map String.ofList, rest)

/-- Splits off the leading digits. -/
def takeDigits (cs : List Char) : List Char × List Char := cs.span Char.isDigit

/-- The fraction after the digits before the point, if there is one; none if it has no digits. -/
def fraction? : List Char → Option (List Char × List Char)
  | '.' :: rest =>
    match takeDigits rest with
    | ([], _) => none
    | (digits, rest) => some (digits, rest)
  | cs => some ([], cs)

/-- The exponent, if there is one; none if it has no digits. -/
def exponent? : List Char → Option (Option Int × List Char)
  | c :: rest =>
    if c = 'e' || c = 'E' then
      let (negative, rest) := match rest with
        | '-' :: rest => (true, rest)
        | '+' :: rest => (false, rest)
        | rest => (false, rest)
      match takeDigits rest with
      | ([], _) => none
      | (digits, rest) =>
        let n : Int := Decimal.ofDigits digits
        some (some (if negative then -n else n), rest)
    else some (none, c :: rest)
  | [] => some (none, [])

/-- A number after its sign. -/
def unsigned? (negative : Bool) (cs : List Char) : Option (Numeral × List Char) := do
  let (whole, afterWhole) := takeDigits cs
  if whole.isEmpty || (whole.length > 1 && whole.head? == some '0') then none
  let (fraction, afterFraction) ← fraction? afterWhole
  let (exponent, rest) ← exponent? afterFraction
  return (⟨negative, whole, fraction, exponent.getD 0, fraction.isEmpty && exponent.isNone⟩, rest)

/-- A number. -/
def numeral? : List Char → Option (Numeral × List Char)
  | '-' :: rest => unsigned? true rest
  | cs => unsigned? false cs

mutual

/-- A value and what follows it.  The fuel bounds the number of steps; a text of `n` characters
needs no more than `2 * n + 2`. -/
def value? : (fuel : Nat) → List Char → Option (Source × List Char)
  | 0, _ => none
  | fuel + 1, cs =>
    match skip cs with
    | 'n' :: 'u' :: 'l' :: 'l' :: rest => some (.null, rest)
    | 't' :: 'r' :: 'u' :: 'e' :: rest => some (.bool true, rest)
    | 'f' :: 'a' :: 'l' :: 's' :: 'e' :: rest => some (.bool false, rest)
    | '"' :: rest => (string? rest).map fun (s, rest) => (.string s, rest)
    | '[' :: rest =>
      match skip rest with
      | ']' :: rest => some (.array [], rest)
      | rest => items? fuel [] rest
    | '\x7b' :: rest =>
      match skip rest with
      | '\x7d' :: rest => some (.object [], rest)
      | rest => members? fuel [] rest
    | rest => (numeral? rest).map fun (n, rest) => (.number n, rest)

/-- The items of an array that is not empty, up to its closing bracket. -/
def items? : (fuel : Nat) → (read : List Source) → List Char → Option (Source × List Char)
  | 0, _, _ => none
  | fuel + 1, read, cs =>
    match value? fuel cs with
    | none => none
    | some (v, rest) =>
      match skip rest with
      | ',' :: rest => items? fuel (v :: read) rest
      | ']' :: rest => some (.array (v :: read).reverse, rest)
      | _ => none

/-- The members of an object that is not empty, up to its closing brace. -/
def members? : (fuel : Nat) → (read : List (Option String × Source)) → List Char →
    Option (Source × List Char)
  | 0, _, _ => none
  | fuel + 1, read, cs =>
    match skip cs with
    | '"' :: rest =>
      match string? rest with
      | none => none
      | some (key, rest) =>
        match skip rest with
        | ':' :: rest =>
          match value? fuel rest with
          | none => none
          | some (v, rest) =>
            match skip rest with
            | ',' :: rest => members? fuel ((key, v) :: read) rest
            | '\x7d' :: rest => some (.object ((key, v) :: read).reverse, rest)
            | _ => none
        | _ => none
    | _ => none

end

/-- The value that a text holds, with nothing but blanks around it. -/
def ofText? (text : String) : Option Source :=
  let cs := text.toList
  match value? (2 * cs.length + 2) cs with
  | some (v, rest) => if (skip rest).isEmpty then some v else none
  | none => none

/-! ## Values -/

/-- How deep containers may nest. -/
def maxNesting : Nat := 127

mutual

/-- The value meant, if it nests no deeper than `levels`. -/
def toJson? (levels : Nat) : Source → Option Json
  | .null => some .null
  | .bool b => some (.bool b)
  | .number n => n.toNumber?.map .number
  | .string s => s.map .string
  | .array items => if levels = 0 then none else (toItems? (levels - 1) items).map .array
  | .object members =>
    if levels = 0 then none
    else (toMembers? (levels - 1) members).map fun ms => .object (Table.ofList ms).entries

/-- The items of an array. -/
def toItems? (levels : Nat) : List Source → Option (List Json)
  | [] => some []
  | v :: rest =>
    match toJson? levels v, toItems? levels rest with
    | some v, some rest => some (v :: rest)
    | _, _ => none

/-- The members of an object, repetitions included. -/
def toMembers? (levels : Nat) : List (Option String × Source) → Option (List (String × Json))
  | [] => some []
  | (k, v) :: rest =>
    match k, toJson? levels v, toMembers? levels rest with
    | some k, some v, some rest => some ((k, v) :: rest)
    | _, _, _ => none

end

end Source

/-- Reads a value. -/
def Json.ofText? (text : String) : Option Json :=
  (Source.ofText? text).bind (Source.toJson? Source.maxNesting)

end Dataflow
