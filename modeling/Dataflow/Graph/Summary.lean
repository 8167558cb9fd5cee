import Dataflow.Graph.Basic

/-! # Describing the graph

`Graph.summary` describes the whole graph as JSON: nodes, edges, listeners, loads, and the places
where targets and parent edges disagree, if there are any.  What is absent or empty is left out,
except where a reader counts on it. -/

namespace Dataflow

/-- The members that are present. -/
def Json.present (members : List (String × Option Json)) : Json :=
  .object (members.filterMap fun m => m.2.map (m.1, ·))

/-- A list as JSON, unless it is empty. -/
def Json.nonempty (items : List Json) : Option Json :=
  if items.isEmpty then none else some (.array items)

/-- Parameters as JSON, unless there are none. -/
def Parameters.describe? (params : Parameters) : Option Json :=
  if params.isEmpty then none else some params.describe

/-- The source of a stream as JSON. -/
def EventSource.toJson (s : EventSource) : Json :=
  .object [("source", Json.ofOption .string s.source), ("type", Json.ofOption .string s.kind),
    ("parent", Json.ofOption Json.ofNat s.parent), ("filter", .bool s.filter.isSome)]

/-- The value that a node holds, or the source of a stream. -/
def NodeKind.value? : NodeKind → Option Json
  | .operator (.plain value _) => value
  | .operator (.transform _) => none
  | .stream source => some source.toJson

/-- A node as JSON. -/
def Node.toJson (handle : Handle) (n : Node) : Json :=
  Json.present [("id", some (Json.ofNat handle)), ("kind", some (.string n.kind.label)),
    ("value", n.kind.value?), ("params", n.params.describe?),
    ("targets", Json.nonempty (n.targets.map Json.ofNat)),
    ("records", some (Json.ofNat n.records.length)), ("react", some (.bool n.react))]

/-- The name of a dependency. -/
def Dependency.kind : Dependency → String
  | .parent => "parent"
  | .param _ => "param"
  | .stream => "stream"

/-- The parameter that a dependency is about. -/
def Dependency.name? : Dependency → Option String
  | .param name => some name
  | _ => none

/-- An edge as JSON. -/
def Edge.toJson (e : Edge) : Json :=
  Json.present [("source", some (Json.ofNat e.source)), ("target", some (Json.ofNat e.target)),
    ("kind", some (.string e.dependency.kind)), ("name", e.dependency.name?.map .string)]

/-- An update as JSON. -/
def ListenerUpdate.toJson : ListenerUpdate → Json
  | .value v => .object [("value", v)]
  | .expression f => Parameter.describeAccessor f

/-- A listener as JSON. -/
def Listener.toJson (l : Listener) : Json :=
  Json.present [("source", some (Json.ofNat l.source)), ("target", some (Json.ofNat l.target)),
    ("update", l.update.map ListenerUpdate.toJson), ("params", l.params.describe?),
    ("options", l.options)]

/-- The name of a kind of load. -/
def LoadKind.name : LoadKind → String
  | .ingest => "ingest"
  | .request => "request"

/-- A load as JSON. -/
def Load.toJson (l : Load) : Json :=
  Json.present [("op", some (Json.ofNat l.node)), ("kind", some (.string l.kind.name)),
    ("payload", some l.payload), ("format", l.format)]

/-- The name of what is missing. -/
def Missing.name : Missing → String
  | .edge => "edge"
  | .target => "target"

/-- A mismatch as JSON. -/
def Mismatch.toJson (m : Mismatch) : Json :=
  .object [("source", Json.ofNat m.source), ("target", Json.ofNat m.target),
    ("missing", .string m.missing.name)]

/-- The graph as JSON. -/
def Graph.summary (g : Graph) : Json :=
  Json.present [
    ("nodes", some (.array (g.nodes.mapIdx Node.toJson))),
    ("edges", some (.array (g.edges.map Edge.toJson))),
    ("listeners", some (.array (g.listeners.map Listener.toJson))),
    ("loads", some (.array (g.loads.map Load.toJson))),
    ("mismatches", Json.nonempty (g.mismatches.map Mismatch.toJson))]

end Dataflow
