import Dataflow.Proofs.StepOutcome
import Mathlib.Logic.Relation

/-!
# What compiling in a scope changes

`Change` lists the elementary changes that compiling makes to a session: a serial number is taken,
a new function is shared, a node is recorded in the scope, a request is made to the graph, or a
child is attached to its parent by two requests that belong together. Each comes with the guards
under which it is made, so invariants are proved by one case distinction on `Change` and carried
over a whole compilation by induction on `Changes`.

A handle from outside may name no node. `Change strict` keeps track of the difference: where
`strict` holds, every handle that is recorded or registered unchecked names a node of the session,
and `Session.Closed` says that this is so for all handles the session refers to.
-/

namespace Dataflow

/-! ## What a session refers to -/

/-- The nodes that a scope refers to. -/
def Scope.handles (sc : Scope) : List Handle :=
  sc.nodes.values ++ sc.signals.values ++ sc.scales.values ++
    sc.data.values.flatMap Table.values ++ sc.root.toList

/-- The nodes that a set of parameters refers to. -/
def Parameters.nodes (params : Parameters) : List Handle := params.handles.map Prod.snd

/-- The handles in a request that the graph takes unchecked. -/
def Request.unchecked : Request → List Handle
  | .listen l => l.params.nodes
  | _ => []

/-- Whether a request links a node to its parent. -/
def Request.isLink : Request → Bool
  | .connect .. => true
  | .addTarget .. => true
  | _ => false

namespace Session

/-- All of the handles name nodes. -/
def Has (s : Session) (handles : List Handle) : Prop := ∀ h ∈ handles, h < s.graph.size

/-- All handles that scopes, parameters of nodes and parameters of listeners hold name nodes. -/
structure Closed (s : Session) : Prop where
  scopes : ∀ sc ∈ s.scopes.scopes, s.Has sc.handles
  nodes : ∀ n ∈ s.graph.nodes, s.Has n.params.nodes
  listeners : ∀ l ∈ s.graph.listeners, s.Has l.params.nodes

theorem Has.append {s : Session} {xs ys : List Handle} :
    s.Has (xs ++ ys) ↔ s.Has xs ∧ s.Has ys := by
  simp only [Has, List.mem_append, or_imp, forall_and]

theorem Has.singleton {s : Session} {h : Handle} : s.Has [h] ↔ h < s.graph.size := by
  simp [Has]

theorem Has.nil (s : Session) : s.Has [] := by simp [Has]

/-- Handles go on to name nodes while the graph grows. -/
theorem Has.mono {s s' : Session} {hs : List Handle} (h : s.Has hs)
    (hle : s.graph.size ≤ s'.graph.size) : s'.Has hs :=
  fun node hn => Nat.lt_of_lt_of_le (h node hn) hle

end Session

/-! ## Elementary changes -/

/-- A place of a scope where a node is recorded. -/
inductive Slot where
  | node (id : EntryId)
  | signal (name : String)
  | scale (name : String)
  | role (dataset name : String)
  | root

/-- Records a node in a scope. -/
def Slot.put (handle : Handle) : Slot → Scope → Scope
  | .node id, sc => { sc with nodes := sc.nodes.insert id handle }
  | .signal name, sc => { sc with signals := sc.signals.insert name handle }
  | .scale name, sc => { sc with scales := sc.scales.insert name handle }
  | .role dataset name, sc =>
    { sc with data := sc.data.insert dataset ((sc.roles dataset).insert name handle) }
  | .root, sc => { sc with root := some handle }

/-- Shares a function in a scope. -/
def Scope.share (key : MemoKey) (f : Function) (sc : Scope) : Scope :=
  { sc with functions := sc.functions.insert key f }

/-- The function computes what its key says where this library is bound. -/
def Function.Fits (library : Option Binding) : MemoKey → Function → Prop
  | .expression text, .accessor f =>
    ∃ e, Expr.compile text library = .ok e ∧ f.body = .expression e library
  | .field path name, .accessor f =>
    ∃ segments, FieldPath.split path = .ok segments ∧ f.body = .path segments ∧
      f.name = some (name.getD path) ∧ f.fields = [path]
  | .compare fields directions, .comparator c => SortKey.ofFields fields directions = .ok c.keys
  | _, _ => False

/-- The session after a serial number has been taken. -/
def Session.counted (s : Session) : Session := { s with nextSerial := s.nextSerial + 1 }

/-- The session after a node has been linked to its parent, where both exist. -/
def Session.attached (s : Session) (parent child : Handle) : Session :=
  match s.graph.refusal? (.connect parent [child]) with
  | none => (s.sent (.connect parent [child])).sent (.addTarget parent child)
  | some _ => s.sent (.connect parent [child])

/-- One change that compiling in a scope makes. -/
inductive Change (strict : Prop) (scope : ScopeId) (s : Session) : Session → Prop where
  | count : Change strict scope s s.counted
  /-- A function is shared only where the scope exists and sees none for the key yet. -/
  | share {key : MemoKey} {f : Function} (known : scope < s.scopes.size)
      (fresh : s.scopes.function? scope key = none) (serial : f.serial = s.nextSerial)
      (fits : f.Fits (s.scopes.library? scope) key) :
      Change strict scope s (s.counted.edited scope (Scope.share key f))
  | record (slot : Slot) {handle : Handle} (known : scope < s.scopes.size)
      (exist : strict → s.Has [handle]) :
      Change strict scope s (s.edited scope (slot.put handle))
  | request {r : Request} (other : r.isLink = false) (exist : strict → s.Has r.unchecked) :
      Change strict scope s (s.sent r)
  | attach (parent child : Handle) : Change strict scope s (s.attached parent child)

/-- Any number of changes. -/
abbrev Changes (strict : Prop) (scope : ScopeId) : Session → Session → Prop :=
  Relation.ReflTransGen (Change strict scope)

/-! ## What all changes have in common -/

section

variable {strict : Prop} {scope : ScopeId} {s s' : Session}

@[simp] theorem Session.scopes_size_edited (s : Session) (scope : ScopeId) (f : Scope → Scope) :
    (s.edited scope f).scopes.size = s.scopes.size := by
  simp [Session.edited, ScopeTree.size]

theorem Session.size_le_sent (s : Session) (r : Request) :
    s.graph.size ≤ (s.sent r).graph.size :=
  s.graph.size_le_after r

theorem Session.size_le_attached (s : Session) (parent child : Handle) :
    s.graph.size ≤ (s.attached parent child).graph.size := by
  unfold attached
  split
  · exact Nat.le_trans (s.size_le_sent _) (Session.size_le_sent _ _)
  · exact s.size_le_sent _

/-- A change removes no node. -/
theorem Change.size_le (h : Change strict scope s s') : s.graph.size ≤ s'.graph.size := by
  cases h with
  | count => exact Nat.le_refl _
  | share => exact Nat.le_refl _
  | record => exact Nat.le_refl _
  | request => exact s.size_le_sent _
  | attach parent child => exact s.size_le_attached parent child

/-- A change makes and removes no scope. -/
theorem Change.scopes_size (h : Change strict scope s s') : s'.scopes.size = s.scopes.size := by
  cases h with
  | count => rfl
  | share => exact Session.scopes_size_edited _ _ _
  | record => exact Session.scopes_size_edited _ _ _
  | request => rfl
  | attach parent child =>
    unfold Session.attached
    split <;> rfl

theorem Changes.size_le (h : Changes strict scope s s') : s.graph.size ≤ s'.graph.size := by
  induction h with
  | refl => exact Nat.le_refl _
  | tail _ hc ih => exact Nat.le_trans ih hc.size_le

theorem Changes.scopes_size (h : Changes strict scope s s') :
    s'.scopes.size = s.scopes.size := by
  induction h with
  | refl => rfl
  | tail _ hc ih => rw [hc.scopes_size, ih]

/-! ## Closed sessions stay closed -/

theorem Scope.mem_handles {sc : Scope} {h : Handle} :
    h ∈ sc.handles ↔ h ∈ sc.nodes.values ∨ h ∈ sc.signals.values ∨ h ∈ sc.scales.values ∨
      (∃ roles ∈ sc.data.values, h ∈ roles.values) ∨ sc.root = some h := by
  simp only [handles, List.mem_append, List.mem_flatMap, Option.mem_toList, or_assoc]

theorem Scope.mem_roles {sc : Scope} {dataset : String} {h : Handle}
    (hh : h ∈ (sc.roles dataset).values) : ∃ roles ∈ sc.data.values, h ∈ roles.values := by
  unfold Scope.roles at hh
  cases hd : sc.data.get? dataset with
  | none => simp [hd, Table.values, Table.empty] at hh
  | some roles =>
    rw [hd] at hh
    exact ⟨roles, Table.mem_values_of_get? hd, hh⟩

/-- A node that is recorded is the only new one that the scope refers to. -/
theorem Slot.mem_handles_put {slot : Slot} {handle h : Handle} {sc : Scope}
    (hh : h ∈ (slot.put handle sc).handles) : h = handle ∨ h ∈ sc.handles := by
  rw [Scope.mem_handles] at hh ⊢
  -- A slot belongs to one of the five tables. There the handle may be the new one, and in all
  -- others it was before.
  cases slot with
  | node id =>
    obtain hh | hh := hh
    · exact (Table.mem_values_insert hh).imp (fun h => h) .inl
    · exact .inr (.inr hh)
  | signal name =>
    obtain hh | hh | hh := hh
    · exact .inr (.inl hh)
    · exact (Table.mem_values_insert hh).imp (fun h => h) fun h => .inr (.inl h)
    · exact .inr (.inr (.inr hh))
  | scale name =>
    obtain hh | hh | hh | hh := hh
    · exact .inr (.inl hh)
    · exact .inr (.inr (.inl hh))
    · exact (Table.mem_values_insert hh).imp (fun h => h) fun h => .inr (.inr (.inl h))
    · exact .inr (.inr (.inr (.inr hh)))
  | role dataset name =>
    obtain hh | hh | hh | ⟨roles, hr, hh⟩ | hh := hh
    · exact .inr (.inl hh)
    · exact .inr (.inr (.inl hh))
    · exact .inr (.inr (.inr (.inl hh)))
    · -- The roles of one dataset are a table inside a table.
      obtain rfl | hr := Table.mem_values_insert hr
      · obtain rfl | hh := Table.mem_values_insert hh
        · exact .inl rfl
        · exact .inr (.inr (.inr (.inr (.inl (Scope.mem_roles hh)))))
      · exact .inr (.inr (.inr (.inr (.inl ⟨roles, hr, hh⟩))))
    · exact .inr (.inr (.inr (.inr (.inr hh))))
  | root =>
    obtain hh | hh | hh | hh | hh := hh
    · exact .inr (.inl hh)
    · exact .inr (.inr (.inl hh))
    · exact .inr (.inr (.inr (.inl hh)))
    · exact .inr (.inr (.inr (.inr (.inl hh))))
    · exact .inl (Option.some.inj hh).symm

/-- A change of one scope keeps a session closed if the scope refers to nothing new but nodes. -/
theorem Session.Closed.edited {f : Scope → Scope} (hs : s.Closed)
    (hf : ∀ sc h, h ∈ (f sc).handles → h < s.graph.size ∨ h ∈ sc.handles) :
    (s.edited scope f).Closed where
  scopes := by
    intro sc hsc h hh
    -- The scope is the one that stood in its place, edited or not.
    obtain hsc | ⟨old, hold, rfl⟩ := List.mem_of_mem_modify hsc
    · exact hs.scopes sc hsc h hh
    · exact (hf old h hh).elim (fun h => h) (hs.scopes old hold h)
  nodes := hs.nodes
  listeners := hs.listeners

/-- A request keeps a session closed if what the graph takes unchecked names nodes. -/
theorem Session.Closed.sent {r : Request} (hs : s.Closed) (hr : s.Has r.unchecked) :
    (s.sent r).Closed where
  scopes := fun sc hsc => (hs.scopes sc hsc).mono (s.size_le_sent r)
  nodes := by
    intro n hn
    -- What a new node refers to was there before the request, and no request removes a node.
    obtain ⟨m, hm, hp⟩ | hnew := Graph.params_after hn
    · rw [← hp]
      exact (hs.nodes m hm).mono (s.size_le_sent r)
    · intro h hh
      obtain ⟨p, hp, rfl⟩ := List.mem_map.mp hh
      exact Nat.lt_of_lt_of_le (hnew p hp) (s.size_le_sent r)
  listeners := by
    intro l hl
    obtain hl | rfl := Graph.listeners_after hl
    · exact (hs.listeners l hl).mono (s.size_le_sent r)
    · exact Session.Has.mono hr (s.size_le_sent _)

theorem Session.Closed.attached {parent child : Handle} (hs : s.Closed) :
    (s.attached parent child).Closed := by
  -- The graph checks both requests in full.
  have hnone : ∀ (s : Session), s.Has [] := Session.Has.nil
  unfold Session.attached
  split
  · exact (hs.sent (hnone _)).sent (hnone _)
  · exact hs.sent (hnone _)

/-- A strict change keeps a session closed. -/
theorem Change.closed (h : Change strict scope s s') (hstrict : strict) (hs : s.Closed) :
    s'.Closed := by
  cases h with
  | count => exact ⟨hs.scopes, hs.nodes, hs.listeners⟩
  | share =>
    have hc : s.counted.Closed := ⟨hs.scopes, hs.nodes, hs.listeners⟩
    exact hc.edited fun sc h hh => .inr hh
  | record slot known exist =>
    refine hs.edited fun sc h hh => (Slot.mem_handles_put hh).imp (fun heq => ?_) fun h => h
    rw [heq]
    exact Session.Has.singleton.mp (exist hstrict)
  | request other exist => exact hs.sent (exist hstrict)
  | attach parent child => exact hs.attached

theorem Changes.closed (h : Changes strict scope s s') (hstrict : strict) (hs : s.Closed) :
    s'.Closed := by
  induction h with
  | refl => exact hs
  | tail _ hc ih => exact hc.closed hstrict ih

end

end Dataflow
