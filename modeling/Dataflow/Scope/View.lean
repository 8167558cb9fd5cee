import Dataflow.Scope.Tree

/-! # What is seen from a scope

The tables along the chain of a scope, laid over one another: what is nearer hides what is
farther, and the names come in the order in which they are met on the way down from the root. -/

namespace Dataflow

namespace ScopeTree

/-- The scopes from the root down to a scope. -/
def fromRoot (t : ScopeTree) (id : ScopeId) : List Scope :=
  (t.chain id).reverse.filterMap t.scope?

/-- A table of every scope from the root down, laid over one another. -/
def merged {κ α : Type} [DecidableEq κ] (t : ScopeTree) (id : ScopeId)
    (table : Scope → Table κ α) : Table κ α :=
  (t.fromRoot id).foldl (fun seen s => seen.insertAll (table s).entries) .empty

/-- The signals seen from a scope. -/
def signals (t : ScopeTree) (id : ScopeId) : Table String Handle := t.merged id Scope.signals

/-- The scales seen from a scope. -/
def scales (t : ScopeTree) (id : ScopeId) : Table String Handle := t.merged id Scope.scales

/-- The names of the datasets seen from a scope. -/
def datasets (t : ScopeTree) (id : ScopeId) : List String := (t.merged id Scope.data).keys

/-- The roles of a dataset seen from a scope; none when no scope along the chain has any. -/
def dataset? (t : ScopeTree) (id : ScopeId) (dataset : String) : Option (Table String Handle) :=
  if (t.fromRoot id).any fun s => s.data.contains dataset then
    some (t.merged id fun s => s.roles dataset)
  else none

end ScopeTree

end Dataflow
