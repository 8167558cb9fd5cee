import Dataflow.Expr.SyntaxError
import Dataflow.FieldPath
import Dataflow.Id
import Dataflow.Json.Printer

/-! # Errors

`GraphError` is why the graph refuses a request, `CompileError` why a specification cannot be
compiled.  A compile error carries the entry that raised it, once: the innermost one. -/

namespace Dataflow

/-- How a propagation target and a parent edge can fail to go together. -/
inductive Missing where
  /-- There is a target without a parent edge. -/
  | edge
  /-- There is a parent edge without a target. -/
  | target
deriving DecidableEq, Repr

/-- A place where parent edges and target sets disagree. -/
structure Mismatch where
  source : Handle
  target : Handle
  missing : Missing
deriving DecidableEq, Repr

/-- The wording of a mismatch. -/
def Mismatch.message (m : Mismatch) : String :=
  match m.missing with
  | .edge => s!"operator {m.source} targets operator {m.target} without a parent edge"
  | .target =>
    s!"parent edge {m.source} -> {m.target} is missing from the target set of {m.source}"

/-- Why the graph refuses a request. -/
inductive GraphError where
  | unknownOperator (handle : Handle)
  /-- The resource of a load is neither a URL nor an object. -/
  | load (handle : Handle) (resource : Json)
  | inconsistent (mismatch : Mismatch)
deriving DecidableEq

/-- The wording of an error. -/
def GraphError.message : GraphError → String
  | .unknownOperator handle => s!"unknown operator: OperatorId({handle})"
  | .load handle resource =>
    s!"load failed for operator {handle}: " ++
      s!"request resource must be a URL or an object, got {resource.compact}"
  | .inconsistent mismatch => s!"graph inconsistency: {mismatch.message}"

/-- A place of a specification that must hold a function. -/
inductive Role where
  | update
  | filter
deriving DecidableEq, Repr

/-- How a role is named in a message. -/
def Role.marker : Role → String
  | .update => "update"
  | .filter => "filter"

/-- What is wrong with a marked value. -/
inductive Malformed where
  /-- The name of an operator is neither a string nor an integer. -/
  | reference
  /-- An expression is not text. -/
  | expression
  /-- A field path is not text. -/
  | field
  /-- The name of a function is not a string. -/
  | functionName
  /-- A list under the marker holds something that is not a string. -/
  | listItem (marker : String)
  /-- The value under the marker is neither a string nor a list. -/
  | list (marker : String)
  | unknownOrder (order : String)
  /-- A nested specification is not an object. -/
  | subflow
  /-- The value in a role is not a function. -/
  | notFunction (role : Role)
  /-- The update of a listener is neither a literal nor a function. -/
  | listenerUpdate
  /-- The source of a listener does not name an entry. -/
  | source (found : Json)
deriving DecidableEq

namespace Malformed

/-- The marker under which the fault was found. -/
def marker : Malformed → String
  | .reference => "$ref"
  | .expression => "$expr"
  | .field => "$field"
  | .functionName => "$name"
  | .listItem marker => marker
  | .list marker => marker
  | .unknownOrder _ => "$order"
  | .subflow => "$subflow"
  | .notFunction role => role.marker
  | .listenerUpdate => "update"
  | .source _ => "source"

/-- The wording of the fault. -/
def reason : Malformed → String
  | .reference => "expected a string or integer id"
  | .expression => "expected expression text"
  | .field => "expected a field path"
  | .functionName => "expected a string"
  | .listItem _ => "expected strings"
  | .list _ => "expected a string or array of strings"
  | .unknownOrder order => s!"unknown order `{order}`"
  | .subflow => "expected a specification object"
  | .notFunction _ => "expected an expression or field reference"
  | .listenerUpdate => "expected a literal value or an expression"
  | .source found => "expected an id or \x7b\"$ref\": id\x7d, got " ++ found.compact

end Malformed

/-- Why a specification cannot be compiled. -/
inductive CompileError where
  | unresolvedReference (id : EntryId)
  | unknownParent (id parent : EntryId)
  | malformedReference (fault : Malformed)
  | emptySubflow
  | subflowDepthExceeded (limit : Nat)
  | scopeNotFound (id : ScopeId)
  | expression (text : String) (source : SyntaxError)
  | fieldPath (path : String) (source : PathError)
  | graph (source : GraphError)
  /-- A nested specification has the wrong form. -/
  | decode
  /-- Any other error, with the entry that raised it. -/
  | inOperator (id : EntryId) (source : CompileError)
deriving DecidableEq

namespace CompileError

/-- Attaches the entry that raised an error, unless it carries one. -/
def within (id : EntryId) : CompileError → CompileError
  | .inOperator inner source => .inOperator inner source
  | e => .inOperator id e

/-- The error without the entries around it. -/
def rootCause : CompileError → CompileError
  | .inOperator _ source => source.rootCause
  | e => e

/-- The wording of an error. -/
def message : CompileError → String
  | .unresolvedReference id => s!"operator not defined: {id.text}"
  | .unknownParent id parent =>
    s!"parent operator {parent.text} of {id.text} is not registered"
  | .malformedReference fault => s!"malformed {fault.marker} reference: {fault.reason}"
  | .emptySubflow => "subflow specification declares no operators"
  | .subflowDepthExceeded limit => s!"subflow nesting depth limit ({limit}) exceeded"
  | .scopeNotFound id => s!"scope not found: ScopeId({id})"
  | .expression text source => s!"invalid expression `{text}`: {source.message}"
  | .fieldPath path source => s!"invalid field path `{path}`: {source.reason}"
  | .graph source => source.message
  | .decode => "specification decode error"
  | .inOperator id source => s!"in {id.text}: {source.message}"

end CompileError

end Dataflow
