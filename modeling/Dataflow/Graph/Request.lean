import Dataflow.Graph.Basic
import Dataflow.Graph.Changeset

/-! # Requests to the graph

A `Request` asks for one change of the graph, and `Graph.perform` carries it out.  A request that
names a node that does not exist fails.  The changes are made in `Graph.Edit`, which keeps the
graph as it is at the point of failure: linking several children to a parent stops at the first
that does not exist, and the links made before it stay. -/

namespace Dataflow

/-- A change of the graph. -/
inductive Request where
  /-- Makes an operator. -/
  | add (behavior : Behavior) (params : Parameters) (react : Bool)
  /-- Links children to a parent. -/
  | connect (parent : Handle) (children : List Handle)
  /-- Lets one node hand its data to another. -/
  | addTarget (source target : Handle)
  /-- Registers a listener. -/
  | listen (listener : Listener)
  /-- Hands data to a node. -/
  | ingest (node : Handle) (data : Json) (format : Option Json)
  /-- Asks to fetch data for a node. -/
  | fetch (node : Handle) (resource : Json) (format : Option Json)
  /-- Changes the records of a node. -/
  | pulse (node : Handle) (changes : Changeset)
  /-- Makes an event stream. -/
  | stream (source : EventSource) (params : Parameters)

namespace Graph

/-- Changes of a graph that can fail. -/
abbrev Edit := EStateM GraphError Graph

namespace Edit

/-- Fails unless the node exists. -/
def require (handle : Handle) : Edit Unit := do
  unless handle < (← get).size do throw (.unknownOperator handle)

/-- Fails unless all nodes exist. -/
def requireAll (handles : List Handle) : Edit Unit := forM handles require

/-- Appends a node. -/
def appendNode (node : Node) : Edit Handle := do
  let handle := (← get).size
  modify fun g => { g with nodes := g.nodes ++ [node] }
  return handle

/-- Changes a node. -/
def modifyNode (handle : Handle) (f : Node → Node) : Edit Unit := do
  require handle
  modify fun g => { g with nodes := g.nodes.modify handle f }

/-- Appends edges. -/
def appendEdges (edges : List Edge) : Edit Unit :=
  modify fun g => { g with edges := g.edges ++ edges }

/-- Appends a load. -/
def appendLoad (load : Load) : Edit Unit := modify fun g => { g with loads := g.loads ++ [load] }

/-- Makes an operator.  If it reacts, it depends on the operators among its parameters. -/
def add (behavior : Behavior) (params : Parameters) (react : Bool) : Edit Handle := do
  requireAll (params.handles.map Prod.snd)
  let handle ← appendNode (.fresh (.operator behavior) params react)
  if react then appendEdges (params.handles.map fun p => ⟨p.2, handle, .param p.1⟩)
  return handle

/-- Links one child to a parent. -/
def connectChild (parent child : Handle) : Edit Unit := do
  require child
  appendEdges [⟨parent, child, .parent⟩]

/-- Links children to a parent, one by one. -/
def connect (parent : Handle) (children : List Handle) : Edit Unit := do
  require parent
  forM children (connectChild parent)

/-- Appends a target, unless it is there. -/
def addTarget (source target : Handle) : Edit Unit := do
  require target
  modifyNode source fun n =>
    if target ∈ n.targets then n else { n with targets := n.targets ++ [target] }

/-- Registers a listener; its parameters are taken as they are. -/
def listen (listener : Listener) : Edit Unit := do
  require listener.source
  require listener.target
  modify fun g => { g with listeners := g.listeners ++ [listener] }

/-- The records in bulk data: the items of an array, or an object alone.  Data of other kinds
holds no records as it stands. -/
def ingested : Json → List Json
  | .array items => items
  | .object members => [.object members]
  | _ => []

/-- Hands data to a node. -/
def ingest (node : Handle) (data : Json) (format : Option Json) : Edit Unit := do
  modifyNode node fun n => { n with records := n.records ++ ingested data }
  appendLoad ⟨node, .ingest, data, format⟩

/-- Whether data can be fetched from a resource: it is a URL or an object. -/
def fetchable : Json → Bool
  | .string _ => true
  | .object _ => true
  | _ => false

/-- Asks to fetch data for a node. -/
def fetch (node : Handle) (resource : Json) (format : Option Json) : Edit Unit := do
  require node
  unless fetchable resource do throw (.load node resource)
  appendLoad ⟨node, .request, resource, format⟩

/-- Changes the records of a node. -/
def pulse (node : Handle) (changes : Changeset) : Edit Unit :=
  modifyNode node fun n => { n with records := changes.apply n.records }

/-- Makes an event stream, which depends on the stream it is derived from. -/
def stream (source : EventSource) (params : Parameters) : Edit Handle := do
  requireAll source.parent.toList
  requireAll (params.handles.map Prod.snd)
  let handle ← appendNode (.fresh (.stream source) params true)
  appendEdges (source.parent.toList.map fun p => ⟨p, handle, .stream⟩)
  return handle

end Edit

/-- Carries out a request.  The answer is the node made, or else the node addressed. -/
def perform : Request → Edit Handle
  | .add behavior params react => Edit.add behavior params react
  | .connect parent children => do Edit.connect parent children; return parent
  | .addTarget source target => do Edit.addTarget source target; return source
  | .listen listener => do Edit.listen listener; return listener.source
  | .ingest node data format => do Edit.ingest node data format; return node
  | .fetch node resource format => do Edit.fetch node resource format; return node
  | .pulse node changes => do Edit.pulse node changes; return node
  | .stream source params => Edit.stream source params

end Graph

end Dataflow
