import Dataflow.CommandLine.Options
import Dataflow.Compile.Specification
import Dataflow.Graph.Summary
import Dataflow.Scope.View

/-! # The report of a compilation

A specification is compiled with the standard library and the standard transforms.  Then the
nested specifications of the operators asked for are copied, and the report shows the root scope,
the copies and the graph. -/

namespace Dataflow.CommandLine

/-- Why there is no report. -/
inductive Failure where
  | compile (source : CompileError)
  /-- Copies are asked for of an operator that does not exist. -/
  | unknownOperator (name : String)
  /-- Copies are asked for of an operator without nested specifications. -/
  | noSubflow (name : String)
  /-- The file cannot be read. -/
  | unreadable (path : String)
  /-- The file does not hold a specification. -/
  | undecodable (path : String)
deriving DecidableEq

namespace Failure

/-- The wording of a failure. -/
def message : Failure → String
  | .compile source => s!"Compilation error: {source.message}"
  | .unknownOperator name => s!"Error: --instantiate names unknown operator '{name}'"
  | .noSubflow name => s!"Error: operator '{name}' has no subflow parameter"
  | .unreadable path => s!"I/O error: failed to read '{path}'"
  | .undecodable path => s!"I/O error: failed to decode '{path}'"

/-- The exit code of a failure: one for errors of the specification, two for errors of use, three
for errors of the file. -/
def exitCode : Failure → Nat
  | .compile _ => 1
  | .unknownOperator _ => 2
  | .noSubflow _ => 2
  | .unreadable _ => 3
  | .undecodable _ => 3

end Failure

/-! ## Copies -/

/-- A copy of a nested specification. -/
structure Instance where
  operator : String
  parameter : String
  index : Nat
  scope : ScopeId
  itemPath : List Nat
  output : Handle
deriving DecidableEq, Repr

/-- A copy as JSON. -/
def Instance.toJson (i : Instance) : Json :=
  .object [("operator", .string i.operator), ("parameter", .string i.parameter),
    ("index", Json.ofNat i.index), ("scope", Json.ofNat i.scope),
    ("item_path", .array (i.itemPath.map Json.ofNat)), ("output", Json.ofNat i.output)]

/-- A step on the way to a report. -/
abbrev Reporting := EStateM Failure Session

namespace Reporting

/-- A step of the compilation. -/
def ofCompile {α : Type} (step : Compile α) : Reporting α := step.adaptExcept Failure.compile

/-- Makes one copy; its scope is the newest below the one it was met in. -/
def copy (operator parameter : String) (subflow : Subflow) (index : Nat) :
    Reporting Instance := do
  let output ← ofCompile (Compile.instantiate subflow index)
  let scopes := (← get).scopes
  let scope := (scopes.forks subflow.scope).getLast?.getD ScopeTree.rootId
  return ⟨operator, parameter, index, scope, scopes.itemPath scope, output⟩

/-- Makes `count` copies, counting on from `index`. -/
def copies (operator parameter : String) (subflow : Subflow) (index : Nat) :
    (count : Nat) → Reporting (List Instance)
  | 0 => return []
  | count + 1 => do
    let first ← copy operator parameter subflow index
    return first :: (← copies operator parameter subflow (index + 1) count)

/-- Makes copies of all nested specifications of an operator. -/
def instantiate (operator : String) (count : Nat) : Reporting (List Instance) := do
  let s ← get
  match s.scopes.node? ScopeTree.rootId ⟨operator⟩ with
  | none => throw (.unknownOperator operator)
  | some handle =>
    let subflows := ((s.graph.node? handle).map fun n => n.params.subflows).getD []
    if subflows.isEmpty then throw (.noSubflow operator)
    let made ← subflows.mapM fun (parameter, subflow) =>
      copies operator parameter subflow 0 count
    return made.flatten

/-- Compiles a specification and makes the copies asked for. -/
def run (spec : Spec) (instances : List (String × Nat)) : Reporting (List Instance) := do
  ofCompile (Compile.specification ScopeTree.rootId spec)
  let made ← instances.mapM fun (operator, count) => instantiate operator count
  return made.flatten

end Reporting

/-! ## The report -/

/-- Nodes by name, as JSON. -/
def handlesJson (entries : List (String × Handle)) : Json :=
  .object (entries.map fun e => (e.1, Json.ofNat e.2))

/-- The root scope as JSON. -/
def scopeJson (scopes : ScopeTree) : Json :=
  let root := ScopeTree.rootId
  let nodes := ((scopes.scope? root).map fun s => s.nodes.entries).getD []
  .object [
    ("nodes", handlesJson (nodes.map fun e => (e.1.text, e.2))),
    ("signals", handlesJson (scopes.signals root).entries),
    ("scales", handlesJson (scopes.scales root).entries),
    ("data", .object ((scopes.datasets root).filterMap fun name =>
      (scopes.dataset? root name).map fun roles => (name, handlesJson roles.entries))),
    ("root", Json.ofOption Json.ofNat (scopes.root? root))]

/-- The report as JSON. -/
def reportJson (s : Session) (instances : List Instance) : Json :=
  Json.present [
    ("scope", some (scopeJson s.scopes)),
    ("instances", Json.nonempty (instances.map Instance.toJson)),
    ("graph", some s.graph.summary)]

/-- The session in which a command is carried out. -/
def Options.session (options : Options) : Session :=
  .new (some .standard) .standard options.depthLimit

/-- The report on a specification. -/
def Options.reportOn (options : Options) (spec : Spec) : Except Failure Json :=
  match Reporting.run spec options.instances options.session with
  | .ok instances s => .ok (reportJson s instances)
  | .error e _ => .error e

/-- What is printed for the text of the file, none when it cannot be read. -/
def Options.output (options : Options) (text : Option String) : Except Failure String := do
  let some text := text | throw (.unreadable options.spec)
  let some spec := Spec.ofText? text | throw (.undecodable options.spec)
  let report ← options.reportOn spec
  return if options.compact then report.compact else report.pretty

end Dataflow.CommandLine
