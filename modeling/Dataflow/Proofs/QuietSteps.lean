import Dataflow.Proofs.NestedCopies
import Dataflow.Proofs.ScopeBindings
import Dataflow.Proofs.SessionRelations

/-!
# Steps that make no request

Resolving reads the graph's handles out of the scopes and shares functions, and publishing records a
node that is there already. Neither asks the graph for anything. `Quiet` says so of a step, however
it ends; it also says that all entries keep the nodes that they are recorded with. Every step that
comes before an operator's node is made is quiet (`quiet_resolveInto`, `quiet_behavior`), and so is
every step that comes after its links (`quiet_publish`).
-/

namespace Dataflow

/-- On the way from one session to another no request and no scope has been made, and no entry has
got another node. -/
structure Session.Untouched (s s' : Session) : Prop where
  graph : s'.graph = s.graph
  journal : s'.journal = s.journal
  scopes_size : s'.scopes.size = s.scopes.size
  nodes : ∀ scope id, s'.scopes.node? scope id = s.scopes.node? scope id

namespace Session

variable {s s' s'' : Session}

theorem Untouched.refl (s : Session) : s.Untouched s := ⟨rfl, rfl, rfl, fun _ _ => rfl⟩

theorem Untouched.trans (h : s.Untouched s') (h' : s'.Untouched s'') : s.Untouched s'' where
  graph := h'.graph.trans h.graph
  journal := h'.journal.trans h.journal
  scopes_size := h'.scopes_size.trans h.scopes_size
  nodes := fun scope id => (h'.nodes scope id).trans (h.nodes scope id)

/-- A search does not notice a change of a scope that keeps its parent and what is looked for. -/
theorem lookup_edited {α : Type} {pick : Scope → Option α} {f : Scope → Scope} (scope : ScopeId)
    (hparent : ∀ sc, (f sc).parent = sc.parent) (hpick : ∀ sc, pick (f sc) = pick sc)
    (id : ScopeId) : (s.edited scope f).scopes.lookup id pick = s.scopes.lookup id pick := by
  refine ScopeTree.lookup_of_first (n := id + 1) (fun a _ => ?_) (fun a _ => ?_)
    (Nat.lt_succ_self _)
  all_goals rw [scope?_edited]
  · cases s.scopes.scope? a with
    | none => rfl
    | some sc =>
      simp only [Option.map_some]
      split
      · rw [hparent]
      · rfl
  · cases s.scopes.scope? a with
    | none => rfl
    | some sc =>
      simp only [Option.map_some, Option.bind_some]
      split
      · exact hpick sc
      · rfl

/-- A change of a scope that keeps its parent and the nodes of its entries. -/
theorem untouched_edited {f : Scope → Scope} (scope : ScopeId)
    (hparent : ∀ sc, (f sc).parent = sc.parent) (hnodes : ∀ sc, (f sc).nodes = sc.nodes) :
    s.Untouched (s.edited scope f) where
  graph := rfl
  journal := rfl
  scopes_size := scopes_size_edited s scope f
  nodes := fun a id => lookup_edited scope hparent (fun sc => by rw [hnodes]) a

/-- Recording a node under anything but the name of an entry leaves all entries their nodes. -/
theorem untouched_put (s : Session) (scope : ScopeId) (slot : Slot) (handle : Handle)
    (h : ∀ id, slot ≠ .node id) : s.Untouched (s.edited scope (slot.put handle)) := by
  refine untouched_edited scope (fun sc => ?_) fun sc => ?_
  all_goals
    cases slot with
    | node id => exact absurd rfl (h id)
    | _ => rfl

/-- A function that is shared is no node. -/
theorem allowsSharing_untouched : AllowsSharing Untouched where
  refl := Untouched.refl
  trans := Untouched.trans
  counted := fun _ => ⟨rfl, rfl, rfl, fun _ _ => rfl⟩
  shared := fun _ scope _ _ _ => untouched_edited scope (fun _ => rfl) fun _ => rfl

end Session

namespace Compile

/-- However the step ends, it makes no request and leaves all entries their nodes. -/
def Quiet {α : Type} (m : Compile α) : Prop :=
  ∀ s : Session, Ends m s (fun _ s' => s.Untouched s') fun _ s' => s.Untouched s'

variable {α β : Type} {scope : ScopeId}

/-! ## Putting steps together -/

theorem Relates.quiet {m : Compile α} (h : Relates Session.Untouched m) : Quiet m :=
  fun s => (h s).mono (fun _ _ hs => hs) fun _ _ hs => hs.2

theorem quiet_pure (a : α) : Quiet (pure a) := fun s => Session.Untouched.refl s

/-- What follows a quiet step starts from an untouched session. -/
theorem ends_bind_quiet {m : Compile α} {f : α → Compile β} {s : Session}
    {done : β → Session → Prop} {failed : CompileError → Session → Prop} (hm : Quiet m)
    (hf : ∀ a s', s.Untouched s' → Ends (f a) s' done failed)
    (he : ∀ e s', s.Untouched s' → failed e s') : Ends (m >>= f) s done failed := by
  rw [ends_bind]
  exact (hm s).mono hf he

/-! ## Resolving -/

theorem quiet_node (id : EntryId) : Quiet (node scope id) :=
  (relates_node Session.allowsSharing_untouched id).quiet

/-- A stream may lack a parent. -/
theorem quiet_parent (id : Option EntryId) : Quiet (id.mapM (node scope)) :=
  (relates_mapM_option Session.allowsSharing_untouched fun id =>
    relates_node Session.allowsSharing_untouched id).quiet

theorem quiet_resolveReference (r : Reference) : Quiet (resolveReference scope r) :=
  (relates_resolveReference Session.allowsSharing_untouched r).quiet

theorem quiet_resolve (v : Json) : Quiet (resolve scope v) :=
  (relates_resolve Session.allowsSharing_untouched v).quiet

theorem quiet_resolveInto (params : Parameters) (members : List (String × Json)) :
    Quiet (resolveInto scope params members) :=
  (relates_resolveInto Session.allowsSharing_untouched params members).quiet

theorem quiet_resolveFunction (role : Role) (params : Parameters) (v : Json) :
    Quiet (resolveFunction scope role params v) :=
  (relates_resolveFunction Session.allowsSharing_untouched role params v).quiet

theorem quiet_listenerUpdate (v : Json) : Quiet (listenerUpdate scope v) :=
  (relates_listenerUpdate Session.allowsSharing_untouched v).quiet

/-! ## Before and after the node of an operator -/

theorem quiet_resolveValue (spec : OperatorSpec) : Quiet (resolveValue scope spec) :=
  (relates_resolveValue Session.allowsSharing_untouched spec).quiet

theorem quiet_behavior (spec : OperatorSpec) (params : Parameters) (initial : Option Json) :
    Quiet (behavior scope spec params initial) :=
  (relates_behavior Session.allowsSharing_untouched spec params initial).quiet

theorem quiet_put (slot : Slot) (handle : Handle) (h : ∀ id, slot ≠ .node id) :
    Quiet (write (·.modify scope (slot.put handle))) :=
  (relates_record Session.allowsSharing_untouched slot fun s =>
    s.untouched_put scope slot handle h).quiet

theorem quiet_publish (spec : OperatorSpec) (handle : Handle) :
    Quiet (publish scope spec handle) :=
  (relates_publish Session.allowsSharing_untouched spec handle fun s slot h =>
    s.untouched_put scope slot handle h).quiet

end Compile

end Dataflow
