import Dataflow.Function
import Dataflow.Table

/-! # Scopes

A specification is compiled in a scope, which records what its entries are called.  Scopes form a
tree: a fork of a scope is a new scope below it.  A read that finds nothing in a scope goes on to
the scope above; a write changes only the scope it addresses.  So a scope sees what is written
above it at any time, and nothing it writes is seen above it or beside it.

A scope is its place in `ScopeTree.scopes`, and a scope above another has the smaller place.
`ScopeTree.chain` lists a scope and the scopes above it, nearest first; every read is a search
along it. -/

namespace Dataflow

/-- What a scope records. -/
structure Scope where
  /-- The scope above. -/
  parent : Option ScopeId
  /-- The indices of the forks from the root down to here. -/
  itemPath : List Nat
  nodes : Table EntryId Handle
  signals : Table String Handle
  scales : Table String Handle
  /-- The nodes that fill the roles of a dataset. -/
  data : Table String (Table String Handle)
  functions : Table MemoKey Function
  /-- The output of the specification that is compiled here. -/
  root : Option Handle
  /-- The scopes just below, oldest first. -/
  forks : List ScopeId
  library : Option Binding

namespace Scope

/-- A scope in which nothing is recorded. -/
def fresh (parent : Option ScopeId) (itemPath : List Nat) (library : Option Binding) :
    Scope where
  parent := parent
  itemPath := itemPath
  nodes := .empty
  signals := .empty
  scales := .empty
  data := .empty
  functions := .empty
  root := none
  forks := []
  library := library

/-- The roles of a dataset as the scope itself has them. -/
def roles (s : Scope) (dataset : String) : Table String Handle :=
  (s.data.get? dataset).getD .empty

end Scope

/-- All scopes, in the order of creation. -/
structure ScopeTree where
  scopes : List Scope

namespace ScopeTree

/-- The scope that all others are below. -/
def rootId : ScopeId := 0

/-- The tree with only a root, to which the library is bound if there is one. -/
def new (library : Option Library) : ScopeTree :=
  ⟨[Scope.fresh none [] (library.map fun l => ⟨l, rootId, []⟩)]⟩

/-- The number of scopes. -/
def size (t : ScopeTree) : Nat := t.scopes.length

/-- A scope by its place. -/
def scope? (t : ScopeTree) (id : ScopeId) : Option Scope := t.scopes[id]?

/-! ## Growing -/

/-- A new scope below `parent`, whose item path goes on with `index`.  The library is bound to it
anew. -/
def fork (t : ScopeTree) (parent : ScopeId) (index : Nat) :
    Except CompileError (ScopeId × ScopeTree) :=
  match t.scope? parent with
  | none => .error (.scopeNotFound parent)
  | some above =>
    let id := t.size
    let itemPath := above.itemPath ++ [index]
    let child := Scope.fresh (some parent) itemPath
      (above.library.map fun b => ⟨b.library, id, itemPath⟩)
    let scopes := t.scopes.modify parent fun s => { s with forks := s.forks ++ [id] }
    .ok (id, ⟨scopes ++ [child]⟩)

/-! ## Writing -/

/-- Changes one scope. -/
def modify (t : ScopeTree) (id : ScopeId) (f : Scope → Scope) : Except CompileError ScopeTree :=
  if id < t.size then .ok ⟨t.scopes.modify id f⟩ else .error (.scopeNotFound id)

/-- Records the node of an entry. -/
def setNode (t : ScopeTree) (id : ScopeId) (entry : EntryId) (handle : Handle) :
    Except CompileError ScopeTree :=
  t.modify id fun s => { s with nodes := s.nodes.insert entry handle }

/-- Records the node behind a signal. -/
def setSignal (t : ScopeTree) (id : ScopeId) (name : String) (handle : Handle) :
    Except CompileError ScopeTree :=
  t.modify id fun s => { s with signals := s.signals.insert name handle }

/-- Records the node behind a scale. -/
def setScale (t : ScopeTree) (id : ScopeId) (name : String) (handle : Handle) :
    Except CompileError ScopeTree :=
  t.modify id fun s => { s with scales := s.scales.insert name handle }

/-- Records the node that fills a role of a dataset; its other roles are kept. -/
def setDataRole (t : ScopeTree) (id : ScopeId) (dataset role : String) (handle : Handle) :
    Except CompileError ScopeTree :=
  t.modify id fun s =>
    { s with data := s.data.insert dataset ((s.roles dataset).insert role handle) }

/-- Records a shared function. -/
def setFunction (t : ScopeTree) (id : ScopeId) (key : MemoKey) (f : Function) :
    Except CompileError ScopeTree :=
  t.modify id fun s => { s with functions := s.functions.insert key f }

/-- Records the output of a scope. -/
def setRoot (t : ScopeTree) (id : ScopeId) (handle : Handle) : Except CompileError ScopeTree :=
  t.modify id fun s => { s with root := some handle }

/-! ## Reading -/

/-- A scope and the scopes above it, nearest first; nothing for a place without a scope. -/
def chain (t : ScopeTree) (id : ScopeId) : List ScopeId :=
  match t.scope? id with
  | none => []
  | some s =>
    id :: match s.parent with
      | none => []
      | some p => if p < id then t.chain p else []
termination_by id

/-- The nearest answer along the chain of a scope. -/
def lookup {α : Type} (t : ScopeTree) (id : ScopeId) (pick : Scope → Option α) : Option α :=
  (t.chain id).findSome? fun a => (t.scope? a).bind pick

theorem lookup_of_none {α : Type} {t : ScopeTree} {id : ScopeId} (h : t.scope? id = none)
    (pick : Scope → Option α) : t.lookup id pick = none := by
  rw [lookup, chain, h]
  rfl

/-- A search looks at a scope and goes on with the one above, which comes before it. -/
theorem lookup_of_some {α : Type} {t : ScopeTree} {id : ScopeId} {s : Scope}
    (h : t.scope? id = some s) (pick : Scope → Option α) :
    t.lookup id pick = (pick s).or
      (s.parent.bind fun p => if p < id then t.lookup p pick else none) := by
  rw [lookup, chain, h, List.findSome?_cons, h, Option.bind_some]
  cases s.parent with
  | none => cases pick s <;> rfl
  | some p =>
    by_cases hlt : p < id
    · simp only [if_pos hlt, Option.bind_some, lookup]
      cases pick s <;> rfl
    · simp only [if_neg hlt, Option.bind_some]
      cases pick s <;> rfl

/-- The node of an entry. -/
def node? (t : ScopeTree) (id : ScopeId) (entry : EntryId) : Option Handle :=
  t.lookup id fun s => s.nodes.get? entry

/-- The node behind a signal. -/
def signal? (t : ScopeTree) (id : ScopeId) (name : String) : Option Handle :=
  t.lookup id fun s => s.signals.get? name

/-- The node behind a scale. -/
def scale? (t : ScopeTree) (id : ScopeId) (name : String) : Option Handle :=
  t.lookup id fun s => s.scales.get? name

/-- The node that fills a role of a dataset. -/
def dataRole? (t : ScopeTree) (id : ScopeId) (dataset role : String) : Option Handle :=
  t.lookup id fun s => (s.roles dataset).get? role

/-- A shared function. -/
def function? (t : ScopeTree) (id : ScopeId) (key : MemoKey) : Option Function :=
  t.lookup id fun s => s.functions.get? key

/-- The output of a scope; it does not come from above. -/
def root? (t : ScopeTree) (id : ScopeId) : Option Handle := (t.scope? id).bind Scope.root

/-- The scope above. -/
def parent? (t : ScopeTree) (id : ScopeId) : Option ScopeId := (t.scope? id).bind Scope.parent

/-- The item path of a scope; empty for a place without a scope. -/
def itemPath (t : ScopeTree) (id : ScopeId) : List Nat :=
  ((t.scope? id).map Scope.itemPath).getD []

/-- The scopes just below, oldest first. -/
def forks (t : ScopeTree) (id : ScopeId) : List ScopeId :=
  ((t.scope? id).map Scope.forks).getD []

/-- The library as it is bound to a scope. -/
def library? (t : ScopeTree) (id : ScopeId) : Option Binding := (t.scope? id).bind Scope.library

/-- What functions may know about a scope. -/
def context? (t : ScopeTree) (id : ScopeId) : Option ScopeContext :=
  (t.scope? id).map fun s => ⟨id, s.itemPath⟩

end ScopeTree

end Dataflow
