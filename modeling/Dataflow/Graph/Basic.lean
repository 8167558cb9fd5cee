import Dataflow.Parameter
import Dataflow.Transform

/-! # The graph

Nodes hold operators and event streams, edges say what depends on what and why, and listeners say
what to update when a node fires.  The graph runs nothing: it keeps what it is told, so that the
result can be described and checked.

A node is its place in `Graph.nodes`.  A structural link is told twice, as a parent edge and as a
target of the parent; `Graph.mismatches` lists where the two disagree. -/

namespace Dataflow

/-! ## Nodes -/

/-- What a node that is not a stream does. -/
inductive Behavior where
  /-- It holds a value, which a function may recompute. -/
  | plain (value : Option Json) (update : Option Accessor)
  | transform (t : Transform)

/-- Where a stream takes its events from. -/
structure EventSource where
  source : Option String
  kind : Option String
  /-- The stream that it is derived from. -/
  parent : Option Handle
  filter : Option Accessor

/-- What a node is. -/
inductive NodeKind where
  | operator (behavior : Behavior)
  | stream (source : EventSource)

/-- The name of a kind of node. -/
def NodeKind.label : NodeKind → String
  | .operator (.plain ..) => "Operator"
  | .operator (.transform t) => t.name
  | .stream _ => "Stream"

/-- A node. -/
structure Node where
  kind : NodeKind
  params : Parameters
  /-- Whether it depends on the operators among its parameters. -/
  react : Bool
  /-- The nodes that it hands its data to, oldest first. -/
  targets : List Handle
  records : List Json

/-- A node as it is made. -/
def Node.fresh (kind : NodeKind) (params : Parameters) (react : Bool) : Node :=
  ⟨kind, params, react, [], []⟩

/-! ## Edges, listeners and loads -/

/-- Why one node depends on another. -/
inductive Dependency where
  /-- The source is its structural parent. -/
  | parent
  /-- Its parameter of this name refers to the source. -/
  | param (name : String)
  /-- It is a stream derived from the source. -/
  | stream
deriving DecidableEq, Repr

/-- A dependency of `target` on `source`. -/
structure Edge where
  source : Handle
  target : Handle
  dependency : Dependency
deriving DecidableEq, Repr

/-- What a listener does to its target. -/
inductive ListenerUpdate where
  | value (v : Json)
  | expression (f : Accessor)

/-- Updates `target` whenever `source` fires. -/
structure Listener where
  source : Handle
  target : Handle
  update : Option ListenerUpdate
  params : Parameters
  options : Option Json

/-- How data comes to a node from outside. -/
inductive LoadKind where
  | ingest
  | request
deriving DecidableEq, Repr

/-- One load: the data, or the resource to fetch it from. -/
structure Load where
  node : Handle
  kind : LoadKind
  payload : Json
  format : Option Json
deriving DecidableEq

/-! ## The graph -/

/-- Nodes, edges, listeners and loads, each oldest first. -/
structure Graph where
  nodes : List Node
  edges : List Edge
  listeners : List Listener
  loads : List Load

namespace Graph

/-- The graph without nodes. -/
def empty : Graph := ⟨[], [], [], []⟩

instance : EmptyCollection Graph := ⟨empty⟩

/-- The number of nodes. -/
def size (g : Graph) : Nat := g.nodes.length

/-- A node by its place. -/
def node? (g : Graph) (handle : Handle) : Option Node := g.nodes[handle]?

/-- All nodes, oldest first. -/
def handles (g : Graph) : List Handle := List.range g.size

/-- The records of a node; none for a place without a node. -/
def records (g : Graph) (handle : Handle) : List Json :=
  ((g.node? handle).map Node.records).getD []

/-- The targets of a node; none for a place without a node. -/
def targets (g : Graph) (handle : Handle) : List Handle :=
  ((g.node? handle).map Node.targets).getD []

/-- The nodes with a parent edge into a node, the newest edge first. -/
def parents (g : Graph) (handle : Handle) : List Handle :=
  (g.edges.filter fun e => e.target == handle && e.dependency == .parent).reverse.map Edge.source

/-- The nodes with a parent edge out of a node, the newest edge first. -/
def children (g : Graph) (handle : Handle) : List Handle :=
  (g.edges.filter fun e => e.source == handle && e.dependency == .parent).reverse.map Edge.target

/-- Where the targets and the parent edges of one node disagree. -/
def mismatchesOf (g : Graph) (source : Handle) : List Mismatch :=
  ((g.targets source).filter (· ∉ g.children source)).map (⟨source, ·, .edge⟩) ++
    ((g.children source).filter (· ∉ g.targets source)).map (⟨source, ·, .target⟩)

/-- Where targets and parent edges disagree, node by node. -/
def mismatches (g : Graph) : List Mismatch := g.handles.flatMap g.mismatchesOf

/-- Fails with the first mismatch. -/
def ensureConsistent (g : Graph) : Except GraphError Unit :=
  match g.mismatches with
  | [] => .ok ()
  | m :: _ => .error (.inconsistent m)

end Graph

end Dataflow
