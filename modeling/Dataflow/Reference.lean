import Dataflow.Function
import Dataflow.Spec.Decode

/-! # References

A value is a reference when it is an object with one of five markers.  `Reference.decode` takes
the first of them in the order `$ref`, `$expr`, `$field`, `$compare`, `$subflow`; all other values
are literals.  `expressionParams?` gives the parameters that an expression brings along. -/

namespace Dataflow

/-- An expression as it is referred to. -/
structure ExpressionRef where
  text : String
  /-- The parameters it brings along. -/
  params : Option (List (String × Json))
  fields : List String
  name : Option String

/-- What a marked value refers to. -/
inductive Reference where
  | operator (id : EntryId)
  | expression (e : ExpressionRef)
  | field (path : String) (name : Option String)
  | compare (fields : List String) (directions : List Direction)
  | subflow (spec : Spec)

/-- The parameters that a value brings along: the object under `$params` beside an `$expr`. -/
def expressionParams? (v : Json) : Option (List (String × Json)) :=
  match v.get? "$expr", v.get? "$params" with
  | some _, some (.object params) => some params
  | _, _ => none

namespace Reference

/-- The marker of a reference. -/
def marker : Reference → String
  | .operator _ => "$ref"
  | .expression _ => "$expr"
  | .field .. => "$field"
  | .compare .. => "$compare"
  | .subflow _ => "$subflow"

/-- The name of a function, which may be missing or null. -/
def functionName (v : Option Json) : Except CompileError (Option String) :=
  match v with
  | none | some .null => .ok none
  | some (.string s) => .ok (some s)
  | some _ => .error (.malformedReference .functionName)

/-- The strings in a list of values. -/
def strings (marker : String) : List Json → Except CompileError (List String)
  | [] => .ok []
  | .string s :: rest => (strings marker rest).map (s :: ·)
  | _ :: _ => .error (.malformedReference (.listItem marker))

/-- A string or a list of strings, which may be missing or null. -/
def stringList (marker : String) (v : Option Json) : Except CompileError (List String) :=
  match v with
  | none | some .null => .ok []
  | some (.string s) => .ok [s]
  | some (.array items) => strings marker items
  | some _ => .error (.malformedReference (.list marker))

/-- The directions that a list of strings names. -/
def directions : List String → Except CompileError (List Direction)
  | [] => .ok []
  | s :: rest =>
    match Direction.ofText? s with
    | some d => (directions rest).map (d :: ·)
    | none => .error (.malformedReference (.unknownOrder s))

/-- The reference under `$ref`. -/
def ofRef (id : Json) : Except CompileError Reference :=
  match EntryId.ofJson? id with
  | some id => .ok (.operator id)
  | none => .error (.malformedReference .reference)

/-- The reference of a value with `$expr`. -/
def ofExpr (v text : Json) : Except CompileError Reference :=
  match text with
  | .string text => do
    let fields ← stringList "$fields" (v.get? "$fields")
    let name ← functionName (v.get? "$name")
    return .expression ⟨text, expressionParams? v, fields, name⟩
  | _ => .error (.malformedReference .expression)

/-- The reference of a value with `$field`. -/
def ofField (v path : Json) : Except CompileError Reference :=
  match path with
  | .string path => do
    let name ← functionName (v.get? "$name")
    return .field path name
  | _ => .error (.malformedReference .field)

/-- The reference of a value with `$compare`. -/
def ofCompare (v fields : Json) : Except CompileError Reference := do
  let fields ← stringList "$compare" (some fields)
  let orders ← stringList "$order" (v.get? "$order")
  return .compare fields (← directions orders)

/-- The reference under `$subflow`. -/
def ofSubflow (nested : Json) : Except CompileError Reference :=
  match nested with
  | .object members =>
    match Spec.decode? (.object members) with
    | some spec => .ok (.subflow spec)
    | none => .error .decode
  | _ => .error (.malformedReference .subflow)

/-- The reference that a value is, none for a literal. -/
def decode (v : Json) : Except CompileError (Option Reference) :=
  match v.get? "$ref" with
  | some id => (ofRef id).map some
  | none =>
    match v.get? "$expr" with
    | some text => (ofExpr v text).map some
    | none =>
      match v.get? "$field" with
      | some path => (ofField v path).map some
      | none =>
        match v.get? "$compare" with
        | some fields => (ofCompare v fields).map some
        | none =>
          match v.get? "$subflow" with
          | some nested => (ofSubflow nested).map some
          | none => .ok none

end Reference

end Dataflow
