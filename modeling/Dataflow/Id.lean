import Dataflow.Json.Basic

/-! # Three kinds of names

An `EntryId` names an entry of a specification, a `Handle` a node of the graph, and a `ScopeId` a
scope.  Handles and scope ids count from zero in the order of creation.

An entry may be named by a string or an integer; both are kept as text, so `1` and `"1"` are one
name.  Where a reference is decoded, every 64-bit integer is allowed; in the structural places of
a specification only the signed ones are. -/

namespace Dataflow

/-- A node of the graph. -/
abbrev Handle := Nat

/-- A scope. -/
abbrev ScopeId := Nat

/-- The name of an entry of a specification. -/
structure EntryId where
  text : String
deriving DecidableEq

namespace EntryId

/-- The name in a reference: a string or any integer. -/
def ofJson? : Json → Option EntryId
  | .string s => some ⟨s⟩
  | .number (.integer n _) => some ⟨toString n⟩
  | _ => none

/-- The name in a structural place: a string or a signed 64-bit integer. -/
def decode? : Json → Option EntryId
  | .string s => some ⟨s⟩
  | .number (.integer n _) => if n < 0x8000000000000000 then some ⟨toString n⟩ else none
  | _ => none

end EntryId

end Dataflow
