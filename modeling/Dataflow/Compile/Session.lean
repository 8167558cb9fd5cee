import Dataflow.Graph.Request
import Dataflow.Scope.Tree

/-! # The state of a compilation

A `Session` is everything that a compilation reads and changes: the scopes, the graph, and a
journal of the requests made to the graph, those that failed included.  A step of a compilation is
a `Compile α`.  A step that fails leaves the session as it is at the point of failure, so later
steps go on from there.

The session hands out the serial numbers by which shared functions are told apart. -/

namespace Dataflow

/-- The state of a compilation. -/
structure Session where
  scopes : ScopeTree
  graph : Graph
  transforms : Registry
  /-- How long the item path of a copy of a nested specification may be. -/
  depthLimit : Nat
  /-- The serial number of the next function. -/
  nextSerial : Nat
  /-- The requests made to the graph, oldest first. -/
  journal : List Request

namespace Session

/-- The depth limit where none is given. -/
def standardLimit : Nat := 64

/-- The session at the start: an empty graph, and only a root scope. -/
def new (library : Option Library) (transforms : Registry) (depthLimit : Nat) : Session where
  scopes := .new library
  graph := .empty
  transforms := transforms
  depthLimit := depthLimit
  nextSerial := 0
  journal := []

end Session

/-- A step of a compilation. -/
abbrev Compile := EStateM CompileError Session

namespace Compile

/-- Makes a request to the graph. -/
def send (request : Request) : Compile Handle := fun s =>
  let journal := s.journal ++ [request]
  match Graph.perform request s.graph with
  | .ok handle graph => .ok handle { s with graph, journal }
  | .error e graph => .error (.graph e) { s with graph, journal }

/-- Changes the scopes. -/
def write (change : ScopeTree → Except CompileError ScopeTree) : Compile Unit := do
  let scopes ← MonadExcept.ofExcept (change (← get).scopes)
  modify fun s => { s with scopes }

/-- Makes a new scope below another. -/
def fork (parent : ScopeId) (index : Nat) : Compile ScopeId := do
  let (id, scopes) ← MonadExcept.ofExcept ((← get).scopes.fork parent index)
  modify fun s => { s with scopes }
  return id

/-- Takes a serial number. -/
def freshSerial : Compile Nat := do
  let serial := (← get).nextSerial
  modify fun s => { s with nextSerial := s.nextSerial + 1 }
  return serial

/-- The node of an entry that must be known. -/
def node (scope : ScopeId) (id : EntryId) : Compile Handle := do
  match (← get).scopes.node? scope id with
  | some handle => return handle
  | none => throw (.unresolvedReference id)

/-- Attaches an entry to the error of a step. -/
def within {α : Type} (id : EntryId) (step : Compile α) : Compile α :=
  step.adaptExcept (CompileError.within id)

end Compile

end Dataflow
