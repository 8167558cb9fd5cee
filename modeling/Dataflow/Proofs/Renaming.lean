import Dataflow.Proofs.SessionChanges

/-!
# The same work under other numbers

Nodes, scopes and shared functions are known by numbers that are handed out in order. Work that is
done later gets higher numbers, and that may be all the difference there is. A `Renaming` translates
the numbers, and `rename` carries the translation through everything that holds such numbers: what
is resolved, requests and their errors, and scopes.

`Renaming.between s t` is the translation from what follows the session `s` to what follows the
session `t`: the numbers that `s` has handed out are kept, and all others are shifted.
-/

namespace Dataflow

/-! ## Shifting numbers -/

/-- Keeps the numbers below `a`, and moves those from `a` on to those from `b` on. -/
def shift (a b n : Nat) : Nat := if n < a then n else n - a + b

theorem shift_of_lt {a b n : Nat} (h : n < a) : shift a b n = n := if_pos h

theorem shift_add (a b k : Nat) : shift a b (a + k) = b + k := by
  rw [shift, if_neg (by omega)]
  omega

@[simp] theorem shift_self (a n : Nat) : shift a a n = n := by
  unfold shift
  split <;> omega

theorem shift_lt_add {a b : Nat} (h : a ≤ b) (n k : Nat) : shift a b n < b + k ↔ n < a + k := by
  unfold shift
  split <;> omega

theorem shift_lt {a b : Nat} (h : a ≤ b) (n : Nat) : shift a b n < b ↔ n < a :=
  shift_lt_add h n 0

theorem shift_sub {a b n : Nat} (h : a ≤ n) : shift a b n - b = n - a := by
  rw [shift, if_neg (Nat.not_lt.mpr h)]
  omega

/-- Numbers stay in order. -/
theorem shift_lt_shift {a b m n : Nat} (h : a ≤ b) (hmn : m < n) : shift a b m < shift a b n := by
  unfold shift
  split <;> split <;> omega

theorem shift_injective {a b : Nat} (h : a ≤ b) : Function.Injective (shift a b) := by
  intro m n hmn
  rcases Nat.lt_trichotomy m n with hlt | heq | hgt
  · exact absurd hmn (Nat.ne_of_lt (shift_lt_shift h hlt))
  · exact heq
  · exact absurd hmn (Nat.ne_of_gt (shift_lt_shift h hgt))

/-! ## Renaming -/

/-- A translation of the numbers of nodes, scopes and functions. -/
structure Renaming where
  handle : Handle → Handle
  scope : ScopeId → ScopeId
  serial : Nat → Nat

/-- From the numbers that follow one session to those that follow another. -/
def Renaming.between (s t : Session) : Renaming where
  handle := shift s.graph.size t.graph.size
  scope := shift s.scopes.size t.scopes.size
  serial := shift s.nextSerial t.nextSerial

variable (r : Renaming)

/-! ### What is resolved -/

/-- A binding to another scope. -/
def Binding.rename (b : Binding) : Binding :=
  ⟨b.library, r.scope b.context.scope, b.context.itemPath⟩

/-- An accessor with its binding renamed. -/
def Accessor.Body.rename : Accessor.Body → Accessor.Body
  | .path segments => .path segments
  | .expression e library => .expression e (library.map (Binding.rename r))

/-- Another instance of an accessor. -/
def Accessor.rename (f : Accessor) : Accessor :=
  { f with serial := r.serial f.serial, body := f.body.rename r }

/-- Another instance of a comparator. -/
def Comparator.rename (c : Comparator) : Comparator := { c with serial := r.serial c.serial }

/-- Another instance of a function. -/
def Function.rename : Function → Function
  | .accessor f => .accessor (f.rename r)
  | .comparator c => .comparator (c.rename r)

/-- A nested specification as it is met in another scope. -/
def Subflow.rename (s : Subflow) : Subflow := { s with scope := r.scope s.scope }

mutual

/-- A parameter with all numbers renamed. -/
def Parameter.rename : Parameter → Parameter
  | .literal v => .literal v
  | .operator handle => .operator (r.handle handle)
  | .accessor f => .accessor (f.rename r)
  | .comparator c => .comparator (c.rename r)
  | .subflow s => .subflow (s.rename r)
  | .array items => .array (Parameter.renameItems items)

/-- The items of an array with all numbers renamed. -/
def Parameter.renameItems : List Parameter → List Parameter
  | [] => []
  | p :: rest => Parameter.rename p :: Parameter.renameItems rest

end

/-- Parameters with all numbers renamed. -/
def Parameters.rename (params : Parameters) : Parameters := params.map (Parameter.rename r)

/-! ### The graph -/

/-- What a node does, with all numbers renamed. -/
def Behavior.rename : Behavior → Behavior
  | .plain value update => .plain value (update.map (Accessor.rename r))
  | .transform t => .transform t

/-- A source of events with all numbers renamed. -/
def EventSource.rename (e : EventSource) : EventSource :=
  { e with parent := e.parent.map r.handle, filter := e.filter.map (Accessor.rename r) }

/-- What a node is, with all numbers renamed. -/
def NodeKind.rename : NodeKind → NodeKind
  | .operator behavior => .operator (behavior.rename r)
  | .stream source => .stream (source.rename r)

/-- A node with all numbers renamed; its records hold none. -/
def Node.rename (n : Node) : Node :=
  { n with
    kind := n.kind.rename r, params := n.params.rename r, targets := n.targets.map r.handle }

/-- An edge between renamed nodes. -/
def Edge.rename (e : Edge) : Edge :=
  { e with source := r.handle e.source, target := r.handle e.target }

/-- The update of a listener with all numbers renamed. -/
def ListenerUpdate.rename : ListenerUpdate → ListenerUpdate
  | .value v => .value v
  | .expression f => .expression (f.rename r)

/-- A listener with all numbers renamed. -/
def Listener.rename (l : Listener) : Listener :=
  { l with
    source := r.handle l.source, target := r.handle l.target
    update := l.update.map (ListenerUpdate.rename r), params := l.params.rename r }

/-- A load of a renamed node. -/
def Load.rename (l : Load) : Load := { l with node := r.handle l.node }

/-- A request with all numbers renamed. -/
def Request.rename : Request → Request
  | .add behavior params react => .add (behavior.rename r) (params.rename r) react
  | .connect parent children => .connect (r.handle parent) (children.map r.handle)
  | .addTarget source target => .addTarget (r.handle source) (r.handle target)
  | .listen l => .listen (l.rename r)
  | .ingest node data format => .ingest (r.handle node) data format
  | .fetch node resource format => .fetch (r.handle node) resource format
  | .pulse node changes => .pulse (r.handle node) changes
  | .stream source params => .stream (source.rename r) (params.rename r)

/-! ### Errors -/

/-- An error of the graph with all numbers renamed. -/
def GraphError.rename : GraphError → GraphError
  | .unknownOperator handle => .unknownOperator (r.handle handle)
  | .load handle resource => .load (r.handle handle) resource
  | .inconsistent m =>
    .inconsistent { m with source := r.handle m.source, target := r.handle m.target }

/-- An error with all numbers renamed. -/
def CompileError.rename : CompileError → CompileError
  | .scopeNotFound id => .scopeNotFound (r.scope id)
  | .graph source => .graph (source.rename r)
  | .inOperator id source => .inOperator id source.rename
  | e => e

/-! ### Scopes -/

/-- A scope with all numbers renamed. -/
def Scope.rename (sc : Scope) : Scope where
  parent := sc.parent.map r.scope
  itemPath := sc.itemPath
  nodes := sc.nodes.map r.handle
  signals := sc.signals.map r.handle
  scales := sc.scales.map r.handle
  data := sc.data.map fun roles => roles.map r.handle
  functions := sc.functions.map (Function.rename r)
  root := sc.root.map r.handle
  forks := sc.forks.map r.scope
  library := sc.library.map (Binding.rename r)

/-! ## What renaming leaves alone -/

variable {r}

theorem Parameter.renameItems_eq (items : List Parameter) :
    Parameter.renameItems r items = items.map (Parameter.rename r) := by
  induction items with
  | nil => rfl
  | cons p rest ih => rw [renameItems, ih, List.map_cons]

theorem Parameter.isLiteral_rename (p : Parameter) : (p.rename r).isLiteral = p.isLiteral := by
  cases p <;> rfl

theorem Parameter.rename_ofFunction (f : Function) :
    (Parameter.ofFunction f).rename r = Parameter.ofFunction (f.rename r) := by
  cases f <;> rfl

mutual

/-- A renamed parameter refers to the renamed nodes. -/
theorem Parameter.handles_rename : (p : Parameter) →
    (p.rename r).handles = p.handles.map r.handle
  | .literal _ => rfl
  | .operator _ => rfl
  | .accessor _ => rfl
  | .comparator _ => rfl
  | .subflow _ => rfl
  | .array items => by
    rw [Parameter.rename, Parameter.handles, Parameter.handles, itemHandles_rename items]

theorem Parameter.itemHandles_rename : (items : List Parameter) →
    Parameter.itemHandles (Parameter.renameItems r items) =
      (Parameter.itemHandles items).map r.handle
  | [] => rfl
  | p :: rest => by
    rw [Parameter.renameItems, Parameter.itemHandles, Parameter.itemHandles, handles_rename p,
      itemHandles_rename rest, List.map_append]

end

theorem Parameters.handles_rename (params : Parameters) :
    (params.rename r).handles = params.handles.map fun q => (q.1, r.handle q.2) := by
  simp only [handles, rename, Table.map, List.flatMap_map, List.map_flatMap,
    Parameter.handles_rename, List.map_map]
  rfl

theorem Parameters.rename_insert (params : Parameters) (name : String) (p : Parameter) :
    Parameters.rename r (params.insert name p) = (params.rename r).insert name (p.rename r) :=
  Table.map_insert ..

theorem Request.checked_rename (q : Request) :
    (q.rename r).checked = q.checked.map r.handle := by
  have hparams : ∀ params : Parameters,
      (params.rename r).handles.map Prod.snd = (params.handles.map Prod.snd).map r.handle := by
    intro params
    rw [Parameters.handles_rename, List.map_map, List.map_map]
    rfl
  cases q with
  | add behavior params react => exact hparams params
  | stream source params =>
    simp only [rename, checked, hparams, List.map_append, EventSource.rename]
    cases source.parent <;> rfl
  | _ => rfl

theorem CompileError.rename_within (id : EntryId) (e : CompileError) :
    (CompileError.within id e).rename r = CompileError.within id (e.rename r) := by
  cases e <;> rfl

/-! ## What a scope records -/

/-- Recording a renamed node in a renamed scope. -/
theorem Scope.rename_put (slot : Slot) (handle : Handle) (sc : Scope) :
    (slot.put handle sc).rename r = slot.put (r.handle handle) (sc.rename r) := by
  cases slot with
  | role dataset name =>
    have hroles : (sc.rename r).roles dataset = (sc.roles dataset).map r.handle := by
      simp only [roles, rename, Table.get?_map]
      cases sc.data.get? dataset <;> rfl
    simp only [Slot.put, hroles, ← Table.map_insert]
    simp only [rename, Table.map_insert]
  | root => rfl
  | _ => simp only [Slot.put, rename, Table.map_insert]

theorem Scope.rename_share (key : MemoKey) (f : Function) (sc : Scope) :
    (sc.share key f).rename r = (sc.rename r).share key (f.rename r) := by
  simp only [share, rename, Table.map_insert]

end Dataflow
