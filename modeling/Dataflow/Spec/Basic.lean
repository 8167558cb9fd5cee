import Dataflow.Id
import Dataflow.Table

/-! # Specifications

A `Spec` declares operators, event streams and update listeners, in this order.  Values that may
hold references stay as JSON until they are resolved in a scope.  The first operator is the output
of a nested specification. -/

namespace Dataflow

/-- Declares a node of the graph. -/
structure OperatorSpec where
  id : EntryId
  kind : String
  /-- Parameters or a starting value; initial data for an operator that collects. -/
  value : Option Json
  params : Option (Table String Json)
  /-- The function that recomputes a plain operator. -/
  update : Option Json
  parent : Option EntryId
  signal : Option String
  scale : Option String
  /-- The roles that the node fills, by dataset. -/
  data : Option (Table String (List String))
  /-- Whether the node is the output of its scope. -/
  root : Bool
  /-- Whether the node depends on the operators among its parameters. -/
  react : Bool

/-- Declares a stream of events, from a source or derived from another stream. -/
structure StreamSpec where
  id : EntryId
  source : Option String
  kind : Option String
  stream : Option EntryId
  filter : Option Json

/-- Declares a listener that updates a target whenever a source fires. -/
structure UpdateSpec where
  source : Json
  target : EntryId
  update : Option Json
  params : Option (Table String Json)
  options : Option Json

/-- A specification. -/
structure Spec where
  operators : List OperatorSpec
  streams : List StreamSpec
  updates : List UpdateSpec

/-- The kind of an operator that holds initial data. -/
def collectKind : String := "Collect"

/-- The kind of an operator without a transform. -/
def plainKind : String := "Operator"

/-- Whether the value of an operator is initial data. -/
def OperatorSpec.isCollect (spec : OperatorSpec) : Bool := spec.kind == collectKind

/-- The entry that a listener listens to: named directly, or in an object under `$ref`. -/
def UpdateSpec.sourceId? (spec : UpdateSpec) : Option EntryId :=
  match spec.source with
  | .object members => (Json.find "$ref" members).bind EntryId.ofJson?
  | v => EntryId.ofJson? v

/-- The operator whose node stands for a copy of the specification. -/
def Spec.output? (spec : Spec) : Option OperatorSpec := spec.operators.head?

end Dataflow
