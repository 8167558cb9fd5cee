import Dataflow.Compile.Resolution
import Dataflow.Spec.DataLoad

/-! # Compiling an operator

An operator's parameters are resolved, its node is made, and the node is registered: under the
name of the entry first, then with its initial data, as the output, below its parent, and last
under its public names.  So an operator that fails to load its data or to find its parent is never
published. -/

namespace Dataflow

namespace Compile

/-! ## Registering -/

/-- Gives a node its initial data. -/
def load (handle : Handle) (value : Json) : Compile Unit :=
  discard <| send <| match DataLoad.select value with
  | .ingest data format => .ingest handle data format
  | .request resource format => .fetch handle resource format
  | .inline records => .pulse handle (Changeset.empty.insert records)

/-- Links a node to the parent of its entry, which must be known. -/
def attach (scope : ScopeId) (id parent : EntryId) (handle : Handle) : Compile Unit := do
  match (← get).scopes.node? scope parent with
  | none => throw (.unknownParent id parent)
  | some p =>
    discard <| send (.connect p [handle])
    discard <| send (.addTarget p handle)

/-- Publishes a node under its signal, its scale and its data roles. -/
def publish (scope : ScopeId) (spec : OperatorSpec) (handle : Handle) : Compile Unit := do
  forM spec.signal fun name => write (·.setSignal scope name handle)
  forM spec.scale fun name => write (·.setScale scope name handle)
  forM spec.data fun data =>
    forM data.entries fun (dataset, roles) =>
      forM roles fun role => write (·.setDataRole scope dataset role handle)

/-- Registers a node for an entry. -/
def register (scope : ScopeId) (spec : OperatorSpec) (handle : Handle) : Compile Unit := do
  write (·.setNode scope spec.id handle)
  if spec.isCollect then forM spec.value (load handle)
  if spec.root then write (·.setRoot scope handle)
  forM spec.parent fun parent => attach scope spec.id parent handle
  publish scope spec handle

/-! ## Making the node -/

/-- Resolves the value of an operator: the members of an object are parameters, and the value is
where the operator starts, unless it is an object with a member that is not a literal.  The value
of an operator that collects is initial data and neither of these. -/
def resolveValue (scope : ScopeId) (spec : OperatorSpec) : Compile (Parameters × Option Json) :=
  if spec.isCollect then return (.empty, none)
  else
    match spec.value with
    | some (.object members) => do
      let params ← resolveInto scope .empty members
      let plain := members.all fun m => (params.get? m.1).any Parameter.isLiteral
      return (params, if plain then some (.object members) else none)
    | value => return (.empty, value)

/-- The transform that an operator names. -/
def transform? (spec : OperatorSpec) (transforms : Registry) : Option Transform :=
  if spec.kind = plainKind then none else transforms.get? spec.kind

/-- What the node of an operator does; only a plain operator has an update, which may bring
parameters along. -/
def behavior (scope : ScopeId) (spec : OperatorSpec) (params : Parameters)
    (initial : Option Json) : Compile (Behavior × Parameters) := do
  match transform? spec (← get).transforms with
  | some t => return (.transform t, params)
  | none =>
    match spec.update with
    | none => return (.plain initial none, params)
    | some v =>
      let (f, params) ← resolveFunction scope .update params v
      return (.plain initial (some f), params)

/-- Compiles an operator. -/
def operator (scope : ScopeId) (spec : OperatorSpec) : Compile Handle := do
  let (params, initial) ← resolveValue scope spec
  let params ← resolveInto scope params ((spec.params.map Table.entries).getD [])
  let (behavior, params) ← behavior scope spec params initial
  let handle ← send (.add behavior params spec.react)
  register scope spec handle
  return handle

end Compile

end Dataflow
