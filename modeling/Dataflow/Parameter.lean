import Dataflow.Function
import Dataflow.Spec.Basic

/-! # Resolved parameters

A `Parameter` is what a value of a specification stands for once its references are resolved.  A
`Subflow` is a nested specification that waits to be built; it remembers the scope it was met in.

`Parameters.handles` lists the operators that a set of parameters depends on, in the order in
which they occur. -/

namespace Dataflow

/-- A nested specification, and the scope it was met in. -/
structure Subflow where
  spec : Spec
  scope : ScopeId

/-- What a value of a specification stands for. -/
inductive Parameter where
  | literal (value : Json)
  | operator (handle : Handle)
  | accessor (f : Accessor)
  | comparator (c : Comparator)
  | subflow (s : Subflow)
  | array (items : List Parameter)

namespace Parameter

instance : Inhabited Parameter := ⟨.literal .null⟩

/-- The name and the declared fields of an accessor, as JSON. -/
def describeAccessor (f : Accessor) : Json :=
  .object [("$accessor", Json.ofOption .string f.name), ("fields", .array (f.fields.map .string))]

mutual

/-- The parameter as JSON; functions and operators are shown by markers. -/
def describe : Parameter → Json
  | .literal v => v
  | .operator handle => .object [("$operator", Json.ofNat handle)]
  | .accessor f => describeAccessor f
  | .comparator c =>
    .object [("$comparator", .array (c.fields.map .string)),
      ("orders", .array (c.directions.map fun d => .string d.text))]
  | .subflow s =>
    .object [("$subflow", Json.ofOption (fun o => .string o.id.text) s.spec.output?)]
  | .array items => .array (describeItems items)

/-- The items of an array as JSON. -/
def describeItems : List Parameter → List Json
  | [] => []
  | p :: rest => describe p :: describeItems rest

end

mutual

/-- The operators that a parameter refers to, also inside arrays. -/
def handles : Parameter → List Handle
  | .operator handle => [handle]
  | .array items => itemHandles items
  | _ => []

/-- The operators that the items of an array refer to. -/
def itemHandles : List Parameter → List Handle
  | [] => []
  | p :: rest => handles p ++ itemHandles rest

end

theorem itemHandles_eq (items : List Parameter) : itemHandles items = items.flatMap handles := by
  induction items with
  | nil => rfl
  | cons p rest ih => rw [itemHandles, ih, List.flatMap_cons]

/-- Whether the parameter is a literal. -/
def isLiteral : Parameter → Bool
  | .literal _ => true
  | _ => false

/-- The nested specifications that a parameter holds, itself or as items. -/
def subflows : Parameter → List Subflow
  | .subflow s => [s]
  | .array items => items.filterMap fun
    | .subflow s => some s
    | _ => none
  | _ => []

end Parameter

/-- Resolved parameters, by name. -/
abbrev Parameters := Table String Parameter

namespace Parameters

/-- The operators that the parameters refer to, each with the name of the parameter. -/
def handles (params : Parameters) : List (String × Handle) :=
  params.entries.flatMap fun e => e.2.handles.map (e.1, ·)

/-- The parameters as JSON. -/
def describe (params : Parameters) : Json :=
  .object (params.entries.map fun e => (e.1, e.2.describe))

/-- The nested specifications among the parameters, each with the name of the parameter. -/
def subflows (params : Parameters) : List (String × Subflow) :=
  params.entries.flatMap fun e => e.2.subflows.map (e.1, ·)

end Parameters

end Dataflow
