import Dataflow.Compile.Operator

/-! # Compiling a specification

The entries of a specification are compiled in order: operators, then streams, then listeners.
The first that fails stops the compilation, and the error names it.

A nested specification is built on demand, in a new scope below the one it was met in.  Every copy
has nodes and names of its own; its first operator stands for it. -/

namespace Dataflow

namespace Compile

/-! ## Streams and listeners -/

/-- Compiles an event stream. -/
def stream (scope : ScopeId) (spec : StreamSpec) : Compile Handle := do
  let parent ← spec.stream.mapM (node scope)
  let (filter, params) ← match spec.filter with
    | none => pure (none, .empty)
    | some v => do
      let (f, params) ← resolveFunction scope .filter .empty v
      pure (some f, params)
  let handle ← send (.stream ⟨spec.source, spec.kind, parent, filter⟩ params)
  write (·.setNode scope spec.id handle)
  return handle

/-- The update of a listener, and the parameters that it brings along. -/
def listenerUpdate (scope : ScopeId) (v : Json) : Compile (ListenerUpdate × Parameters) := do
  let params ← resolveBrought scope .empty v
  match ← resolveOne scope v with
  | .literal v => return (.value v, params)
  | .accessor f => return (.expression f, params)
  | _ => throw (.malformedReference .listenerUpdate)

/-- Compiles a listener. -/
def listener (scope : ScopeId) (spec : UpdateSpec) : Compile Unit := do
  let some sourceId := spec.sourceId? | throw (.malformedReference (.source spec.source))
  let source ← node scope sourceId
  let target ← node scope spec.target
  let (update, params) ← match spec.update with
    | none => pure (none, .empty)
    | some v => do
      let (update, params) ← listenerUpdate scope v
      pure (some update, params)
  let params ← resolveInto scope params ((spec.params.map Table.entries).getD [])
  discard <| send (.listen ⟨source, target, update, params, spec.options⟩)

/-! ## Specifications -/

/-- Compiles a specification in a scope. -/
def specification (scope : ScopeId) (spec : Spec) : Compile Unit := do
  forM spec.operators fun o => within o.id (discard (operator scope o))
  forM spec.streams fun s => within s.id (discard (stream scope s))
  forM spec.updates fun u => within u.target (listener scope u)

/-- Builds a copy of a nested specification, and gives the node that stands for it. -/
def instantiate (subflow : Subflow) (index : Nat) : Compile Handle := do
  let some output := subflow.spec.output? | throw .emptySubflow
  let s ← get
  if s.depthLimit < (s.scopes.itemPath subflow.scope).length + 1 then
    throw (.subflowDepthExceeded s.depthLimit)
  let child ← fork subflow.scope index
  specification child subflow.spec
  node child output.id

end Compile

end Dataflow
