import Dataflow.Json.Reader
import Dataflow.Spec.Basic

/-! # Decoding specifications

A record is written as an object, where unknown members are ignored, or as an array of its fields
in order, where fields at the end may be missing.  A field is required, has a default, or is
optional; an optional field may be null.

`Spec.decode?` decodes a value.  `Spec.ofText?` decodes a text, which can go wrong in two more
ways: a known field may be repeated, and a value that is used may be out of range or nest too
deep. -/

namespace Dataflow

/-! ## Records -/

/-- The fields of a record, by name. -/
abbrev Fields := List (String × Json)

namespace Fields

/-- The fields of a value, given the names of the fields in order. -/
def of? (names : List String) : Json → Option Fields
  | .object members => some members
  | .array items => if items.length ≤ names.length then some (names.zip items) else none
  | _ => none

variable {α : Type}

/-- A field that must be there. -/
def required (fields : Fields) (name : String) (decode : Json → Option α) : Option α :=
  (Json.find name fields).bind decode

/-- A field with a default. -/
def defaulted (fields : Fields) (name : String) (default : α) (decode : Json → Option α) :
    Option α :=
  match Json.find name fields with
  | some v => decode v
  | none => some default

/-- A field that may be missing or null. -/
def optional (fields : Fields) (name : String) (decode : Json → Option α) : Option (Option α) :=
  match Json.find name fields with
  | some .null => some none
  | some v => (decode v).map some
  | none => some none

end Fields

/-! ## Values -/

namespace Json

/-- A truth value. -/
def toBool? : Json → Option Bool
  | .bool b => some b
  | _ => none

/-- An array of decoded items. -/
def toList? {α : Type} (decode : Json → Option α) : Json → Option (List α)
  | .array items => items.mapM decode
  | _ => none

/-- An object with decoded members. -/
def toTable? {α : Type} (decode : Json → Option α) : Json → Option (Table String α)
  | .object members =>
    (members.mapM fun (m : String × Json) => (decode m.2).map (m.1, ·)).map Table.ofList
  | _ => none

end Json

/-! ## Specifications -/

/-- The fields of an operator, in order. -/
def OperatorSpec.fieldNames : List String :=
  ["id", "type", "value", "params", "update", "parent", "signal", "scale", "data", "root", "react"]

/-- The fields of a stream, in order. -/
def StreamSpec.fieldNames : List String := ["id", "source", "type", "stream", "filter"]

/-- The fields of a listener, in order. -/
def UpdateSpec.fieldNames : List String := ["source", "target", "update", "params", "options"]

/-- The fields of a specification, in order. -/
def Spec.fieldNames : List String := ["operators", "streams", "updates"]

/-- The fields of a reference to an entry. -/
def EntryId.fieldNames : List String := ["$ref"]

/-- A reference to an entry. -/
def EntryId.ofReference? (v : Json) : Option EntryId := do
  let fields ← Fields.of? EntryId.fieldNames v
  fields.required "$ref" EntryId.decode?

/-- Decodes an operator. -/
def OperatorSpec.decode? (v : Json) : Option OperatorSpec := do
  let fields ← Fields.of? OperatorSpec.fieldNames v
  return {
    id := ← fields.required "id" EntryId.decode?
    kind := ← fields.defaulted "type" plainKind Json.toString?
    value := ← fields.optional "value" some
    params := ← fields.optional "params" (Json.toTable? some)
    update := ← fields.optional "update" some
    parent := ← fields.optional "parent" EntryId.ofReference?
    signal := ← fields.optional "signal" Json.toString?
    scale := ← fields.optional "scale" Json.toString?
    data := ← fields.optional "data" (Json.toTable? (Json.toList? Json.toString?))
    root := ← fields.defaulted "root" false Json.toBool?
    react := ← fields.defaulted "react" true Json.toBool? }

/-- Decodes a stream. -/
def StreamSpec.decode? (v : Json) : Option StreamSpec := do
  let fields ← Fields.of? StreamSpec.fieldNames v
  return {
    id := ← fields.required "id" EntryId.decode?
    source := ← fields.optional "source" Json.toString?
    kind := ← fields.optional "type" Json.toString?
    stream := ← fields.optional "stream" EntryId.ofReference?
    filter := ← fields.optional "filter" some }

/-- Decodes a listener. -/
def UpdateSpec.decode? (v : Json) : Option UpdateSpec := do
  let fields ← Fields.of? UpdateSpec.fieldNames v
  return {
    source := ← fields.required "source" some
    target := ← fields.required "target" EntryId.ofReference?
    update := ← fields.optional "update" some
    params := ← fields.optional "params" (Json.toTable? some)
    options := ← fields.optional "options" some }

/-- Decodes a specification. -/
def Spec.decode? (v : Json) : Option Spec := do
  let fields ← Fields.of? Spec.fieldNames v
  return {
    operators := ← fields.defaulted "operators" [] (Json.toList? OperatorSpec.decode?)
    streams := ← fields.defaulted "streams" [] (Json.toList? StreamSpec.decode?)
    updates := ← fields.defaulted "updates" [] (Json.toList? UpdateSpec.decode?) }

/-! ## Text -/

/-- How the parts of a text are used. -/
inductive Shape where
  /-- As a value. -/
  | value
  /-- As an array of parts of one shape. -/
  | list (item : Shape)
  /-- As an object whose members are all used, repeated ones too. -/
  | dictionary
  /-- As a record with these fields. -/
  | record (fields : List (String × Shape))

namespace Shape

/-- A reference to an entry. -/
def reference : Shape := .record [("$ref", .value)]

/-- An operator. -/
def operator : Shape := .record [
  ("id", .value), ("type", .value), ("value", .value), ("params", .value), ("update", .value),
  ("parent", reference), ("signal", .value), ("scale", .value), ("data", .dictionary),
  ("root", .value), ("react", .value)]

/-- A stream. -/
def stream : Shape := .record [
  ("id", .value), ("source", .value), ("type", .value), ("stream", reference), ("filter", .value)]

/-- A listener. -/
def update : Shape := .record [
  ("source", .value), ("target", reference), ("update", .value), ("params", .value),
  ("options", .value)]

/-- A specification. -/
def spec : Shape := .record [
  ("operators", .list operator), ("streams", .list stream), ("updates", .list update)]

mutual

/-- The value of a text used in some shape, if containers nest no deeper than `levels`.  Members
of a record that are no fields of it are dropped unseen; a repeated field is an error. -/
def read? (levels : Nat) (shape : Shape) : Source → Option Json
  | .array items =>
    if levels = 0 then none
    else
      match shape with
      | .list item => (readItems? (levels - 1) item items).map .array
      | .record fields => (readPositions? (levels - 1) (fields.map Prod.snd) items).map .array
      | _ => Source.toJson? levels (.array items)
  | .object members =>
    if levels = 0 then none
    else
      match shape with
      | .dictionary => (Source.toMembers? (levels - 1) members).map .object
      | .record fields => (readFields? (levels - 1) fields [] members).map .object
      | _ => Source.toJson? levels (.object members)
  | source => Source.toJson? levels source

/-- The items of an array that have one shape. -/
def readItems? (levels : Nat) (shape : Shape) : List Source → Option (List Json)
  | [] => some []
  | v :: rest =>
    match read? levels shape v, readItems? levels shape rest with
    | some v, some rest => some (v :: rest)
    | _, _ => none

/-- The fields of a record written as an array. -/
def readPositions? (levels : Nat) (shapes : List Shape) : List Source → Option (List Json)
  | [] => some []
  | v :: rest =>
    match read? levels (shapes.head?.getD .value) v, readPositions? levels shapes.tail rest with
    | some v, some rest => some (v :: rest)
    | _, _ => none

/-- The fields of a record written as an object, of which `seen` have been read. -/
def readFields? (levels : Nat) (fields : List (String × Shape)) (seen : List String) :
    List (Option String × Source) → Option (List (String × Json))
  | [] => some []
  | (key, v) :: rest =>
    match key with
    | none => none
    | some key =>
      match fields.lookup key with
      | none => readFields? levels fields seen rest
      | some shape =>
        if key ∈ seen then none
        else
          match read? levels shape v, readFields? levels fields (key :: seen) rest with
          | some v, some rest => some ((key, v) :: rest)
          | _, _ => none

end

end Shape

/-- Decodes the text of a specification. -/
def Spec.ofText? (text : String) : Option Spec := do
  let source ← Source.ofText? text
  let v ← Shape.spec.read? Source.maxNesting source
  Spec.decode? v

end Dataflow
