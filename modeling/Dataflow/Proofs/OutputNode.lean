import Dataflow.Proofs.FlattenedParameters
import Dataflow.Proofs.IsolatedInstances
import Dataflow.Proofs.RequestOrder

/-!
# Which node stands for a copy

Operators and streams are recorded under their names in one table, operators first, and each gets
the next node (`Session.Recorded`). The node that stands for a copy is looked up under the name of
the first operator once all entries have been compiled. So if a later operator or a stream has the
same name, the copy is given out by that entry's node.

`ends_entries` says what a list of entries leaves in the table. The main result is `output_node`.
-/

namespace Dataflow

/-! ## Entries -/

/-- An entry of a specification that gets a node. -/
inductive Entry where
  | operator (spec : OperatorSpec)
  | stream (spec : StreamSpec)

/-- The name under which the node is recorded. -/
def Entry.id : Entry → EntryId
  | operator spec => spec.id
  | stream spec => spec.id

/-- The entries that get a node, in the order in which they are compiled. -/
def Spec.entries (spec : Spec) : List Entry :=
  spec.operators.map .operator ++ spec.streams.map .stream

/-- The nodes that are seen once the entries have been recorded with this node and the next ones. -/
def recorded (seen : EntryId → Option Handle) (next : Handle) :
    List Entry → EntryId → Option Handle
  | [] => seen
  | e :: rest => recorded (Function.update seen e.id (some next)) (next + 1) rest

theorem recorded_append (seen : EntryId → Option Handle) (next : Handle) (xs ys : List Entry) :
    recorded seen next (xs ++ ys) = recorded (recorded seen next xs) (next + xs.length) ys := by
  induction xs generalizing seen next with
  | nil => rfl
  | cons e rest ih =>
    rw [List.cons_append, recorded, ih, recorded, List.length_cons, Nat.add_right_comm,
      Nat.add_assoc]

theorem recorded_of_not_mem {id : EntryId} {xs : List Entry} (h : ∀ e ∈ xs, e.id ≠ id)
    (seen : EntryId → Option Handle) (next : Handle) : recorded seen next xs id = seen id := by
  induction xs generalizing seen next with
  | nil => rfl
  | cons e rest ih =>
    rw [List.forall_mem_cons] at h
    rw [recorded, ih h.2, Function.update_of_ne h.1.symm]

/-- Under a name stands the last entry that has it. -/
theorem recorded_last {after : List Entry} {last : Entry} (h : ∀ e ∈ after, e.id ≠ last.id)
    (seen : EntryId → Option Handle) (next : Handle) (before : List Entry) :
    recorded seen next (before ++ last :: after) last.id = some (next + before.length) := by
  rw [recorded_append, recorded, recorded_of_not_mem h, Function.update_self]

/-- Of the entries with a name there is a last one. -/
theorem exists_last {id : EntryId} {xs : List Entry} (h : ∃ e ∈ xs, e.id = id) :
    ∃ before last after, xs = before ++ last :: after ∧ last.id = id ∧
      ∀ e ∈ after, e.id ≠ id := by
  induction xs with
  | nil => simp at h
  | cons x rest ih =>
    -- The first entry is the last one with the name only if no later one has it.
    by_cases hrest : ∃ e ∈ rest, e.id = id
    · obtain ⟨before, last, after, rfl, hlast⟩ := ih hrest
      exact ⟨x :: before, last, after, rfl, hlast⟩
    · obtain ⟨e, he, hid⟩ := h
      obtain rfl | he := List.mem_cons.mp he
      · exact ⟨[], e, rest, rfl, hid, fun d hd hdid => hrest ⟨d, hd, hdid⟩⟩
      · exact absurd ⟨e, he, hid⟩ hrest

/-! ## One entry -/

/-- The next node has been made and recorded for the entry, and it is given back. -/
structure Session.Recorded (s : Session) (scope : ScopeId) (id : EntryId) (h : Handle)
    (s' : Session) : Prop where
  handle : h = s.graph.size
  size : s'.graph.size = s.graph.size + 1
  nodes : s'.scopes.node? scope = s.withNext scope id

/-- All entries have the nodes that they had. -/
def Session.SameNodes (s s' : Session) : Prop :=
  ∀ scope id, s'.scopes.node? scope id = s.scopes.node? scope id

theorem Session.allowsSharing_sameNodes : AllowsSharing SameNodes where
  refl := fun _ _ _ => rfl
  trans := fun h h' scope id => (h' scope id).trans (h scope id)
  counted := fun _ _ _ => rfl
  shared := fun s scope key f hnone => (allowsSharing_untouched.shared s scope key f hnone).nodes

namespace Compile

variable {α β : Type} {scope : ScopeId} {s : Session}

/-- Compiles an entry. -/
def entry (scope : ScopeId) : Entry → Compile Handle
  | .operator spec => operator scope spec
  | .stream spec => stream scope spec

/-- Compiles entries in turn. -/
def entries (scope : ScopeId) (xs : List Entry) : Compile Unit :=
  forM xs fun e => within e.id (discard (entry scope e))

/-- A specification is a list of entries, and then the listeners. -/
theorem specification_eq (spec : Spec) :
    specification scope spec = entries scope spec.entries >>= fun _ =>
      forM spec.updates fun u => within u.target (listener scope u) := by
  rw [entries, Spec.entries, List.forM_append, List.forM_map, List.forM_map, bind_assoc]
  rfl

/-- An entry that has been named, and whose node has been dropped, has been compiled. -/
theorem of_within_discard {id : EntryId} {m : Compile α} {s' : Session}
    (h : within id (discard m) s = .ok () s') : ∃ a, m s = .ok a s' := by
  have hends : Ends (discard m) s (fun _ s' => ∃ a, m s = .ok a s') fun _ _ => True := by
    rw [ends_discard]
    unfold Ends
    cases m s <;> simp
  exact hends.ok (within_eq_ok.mp h)

/-- However a step ends, what always holds holds. -/
theorem ends_of_forall {m : Compile α} {done : α → Session → Prop}
    {failed : CompileError → Session → Prop} (hd : ∀ a s', done a s') (hf : ∀ e s', failed e s') :
    Ends m s done failed := by
  unfold Ends
  cases m s with
  | ok a s' => exact hd a s'
  | error e s' => exact hf e s'

/-- An operator gives back its node, which is the next one. -/
theorem ends_operator_handle (spec : OperatorSpec) :
    Ends (operator scope spec) s (fun h _ => h = s.graph.size) fun _ _ => True := by
  have hquiet : Quiet (prepare scope spec) :=
    (relates_prepare Session.allowsSharing_untouched spec).quiet
  rw [operator_eq]
  refine ends_bind_quiet hquiet (fun r s₁ h₁ => ?_) fun _ _ _ => trivial
  unfold make
  rw [ends_bind, ends_send]
  refine ⟨fun _ => ?_, fun _ _ => trivial⟩
  rw [ends_bind]
  refine ends_of_forall (fun _ s₂ => ?_) fun _ _ => trivial
  -- Nothing has been asked for before, so the next node is still the same.
  show s₁.graph.size = s.graph.size
  rw [h₁.graph]

theorem ends_operator_recorded (spec : OperatorSpec) :
    Ends (operator scope spec) s (fun h s' => s.Recorded scope spec.id h s') fun _ _ => True :=
  ((ends_operator spec).and (ends_operator_handle spec)).mono
    (fun _ _ ⟨hmade, hhandle⟩ => ⟨hhandle, hmade.size, hmade.nodes⟩) fun _ _ _ => trivial

/-- A stream asks for its node after quiet steps, and records it at once. -/
theorem ends_stream_recorded (spec : StreamSpec) :
    Ends (stream scope spec) s (fun h s' => s.Recorded scope spec.id h s') fun _ _ => True := by
  -- What is left to do once the filter is there.
  have hsend : ∀ (source : EventSource) (params : Parameters) (s' : Session), s.Untouched s' →
      Ends (do
        let handle ← send (.stream source params)
        write (·.setNode scope spec.id handle)
        return handle) s' (fun h s'' => s.Recorded scope spec.id h s'') fun _ _ => True := by
    intro source params s' h'
    rw [ends_bind, ends_send]
    refine ⟨fun hok => ?_, fun _ _ => trivial⟩
    have hanswer : s'.graph.answer (.stream source params) = s'.graph.size := rfl
    have hsize : (s'.sent (.stream source params)).graph.size = s'.graph.size + 1 := by
      show (s'.graph.after _).size = s'.graph.size + 1
      rw [Graph.after, hok]
      exact Graph.size_grown _ _ _
    rw [hanswer, ends_bind, ends_setNode]
    refine ⟨fun known => ⟨congrArg Graph.size h'.graph, ?_, ?_⟩, fun _ => trivial⟩
    · exact hsize.trans (by rw [h'.graph])
    · rw [node?_recorded spec.id _ known, h'.graph, Session.withNext]
      exact congrArg (Function.update · _ _) (funext (h'.nodes scope))
  unfold stream
  refine ends_bind_quiet (quiet_parent spec.stream) (fun parent s₁ h₁ => ?_) fun _ _ _ => trivial
  cases spec.filter with
  | none => exact hsend _ _ s₁ h₁
  | some v =>
    exact ends_bind_quiet (quiet_resolveFunction .filter .empty v)
      (fun r s₂ h₂ => hsend _ r.2 s₂ (h₁.trans h₂)) fun _ _ _ => trivial

theorem ends_entry (e : Entry) :
    Ends (entry scope e) s (fun h s' => s.Recorded scope e.id h s') fun _ _ => True := by
  cases e with
  | operator spec => exact ends_operator_recorded spec
  | stream spec => exact ends_stream_recorded spec

/-! ## All entries -/

/-- The entries get the next nodes one after the other. -/
theorem ends_entries (xs : List Entry) :
    Ends (entries scope xs) s
      (fun _ s' => s'.graph.size = s.graph.size + xs.length ∧
        s'.scopes.node? scope = recorded (s.scopes.node? scope) s.graph.size xs)
      fun _ _ => True := by
  induction xs generalizing s with
  | nil => exact ⟨rfl, rfl⟩
  | cons e rest ih =>
    unfold entries
    rw [List.forM_cons, ends_bind, ends_within, ends_discard]
    refine (ends_entry e).mono (fun h s₁ hfirst => ?_) fun _ _ _ => trivial
    refine (@ih s₁).mono (fun _ s₂ ⟨hsize, hnodes⟩ => ⟨?_, ?_⟩) fun _ _ _ => trivial
    · rw [hsize, hfirst.size, List.length_cons, Nat.add_assoc, Nat.add_comm 1]
    · rw [hnodes, hfirst.nodes, hfirst.size]
      rfl

/-- Where a list of entries has been compiled, each entry has been, after those before it. -/
theorem exists_entry {before after : List Entry} {e : Entry} {s' : Session}
    (h : entries scope (before ++ e :: after) s = .ok () s') :
    ∃ t t', entries scope before s = .ok () t ∧
      entry scope e t = .ok (s.graph.size + before.length) t' := by
  rw [entries, List.forM_append, bind_eq_ok] at h
  obtain ⟨_, t, hbefore, hrest⟩ := h
  rw [List.forM_cons, bind_eq_ok] at hrest
  obtain ⟨_, t', hentry, -⟩ := hrest
  obtain ⟨handle, hentry⟩ := of_within_discard hentry
  have hsize := ((ends_entries before).ok hbefore).1
  refine ⟨t, t', hbefore, ?_⟩
  rw [hentry, ((ends_entry e).ok hentry).handle, hsize]

/-! ## Listeners -/

/-- The step leaves the nodes of all entries that are seen from the scope, if it succeeds. -/
def LeavesNodes (scope : ScopeId) (m : Compile α) : Prop :=
  ∀ s : Session, Ends m s (fun _ s' => s'.scopes.node? scope = s.scopes.node? scope) fun _ _ => True

/-- Listeners are only resolved and registered, and the graph keeps them. -/
theorem leavesNodes_listeners (specs : List UpdateSpec) :
    LeavesNodes scope (forM specs fun u => within u.target (listener scope u)) := by
  have hlistener : ∀ u, Relates Session.SameNodes (listener scope u) :=
    fun u => relates_listener Session.allowsSharing_sameNodes (fun _ _ _ _ => rfl) u
  exact fun s => (ends_forM_within Session.allowsSharing_sameNodes hlistener s).mono
    (fun _ _ h => funext (h scope)) fun _ _ _ => trivial

/-- A specification that has been compiled has compiled its entries, and their nodes are seen. -/
theorem entries_of_specification {spec : Spec} {s' : Session}
    (h : specification scope spec s = .ok () s') :
    (∃ t, entries scope spec.entries s = .ok () t) ∧
      s'.scopes.node? scope = recorded (s.scopes.node? scope) s.graph.size spec.entries := by
  rw [specification_eq, bind_eq_ok] at h
  obtain ⟨_, t, hentries, hlisteners⟩ := h
  refine ⟨⟨t, hentries⟩, ?_⟩
  rw [(leavesNodes_listeners spec.updates t).ok hlisteners]
  exact ((ends_entries spec.entries).ok hentries).2

/-- What has been done where a copy has been built. -/
theorem of_instantiate {subflow : Subflow} {index : Nat} {h : Handle} {s' : Session}
    (hcopy : instantiate subflow index s = .ok h s') :
    ∃ above output t, s.scopes.scope? subflow.scope = some above ∧
      subflow.spec.output? = some output ∧
      specification s.scopes.size subflow.spec (s.forked subflow.scope above index) = .ok () t ∧
      t.scopes.node? s.scopes.size output.id = some h := by
  rw [instantiate_run] at hcopy
  cases houtput : subflow.spec.output? with
  | none =>
    rw [houtput] at hcopy
    cases hcopy
  | some output =>
    rw [houtput] at hcopy
    simp only at hcopy
    split at hcopy
    · cases hcopy
    · cases habove : s.scopes.scope? subflow.scope with
      | none =>
        rw [habove] at hcopy
        cases hcopy
      | some above =>
        rw [habove] at hcopy
        obtain ⟨_, t, hspec, hnode⟩ := bind_eq_ok.mp hcopy
        refine ⟨above, output, t, rfl, rfl, hspec, ?_⟩
        have hfound : Ends (node s.scopes.size output.id) t
            (fun h' _ => t.scopes.node? s.scopes.size output.id = some h') fun _ _ => True :=
          ends_node.mpr ⟨fun _ h => h, fun _ => trivial⟩
        exact hfound.ok hnode

end Compile

/-! ## Copies -/

/-- The entries of a specification start with its first operator. -/
theorem Spec.entries_of_output? {spec : Spec} {first : OperatorSpec}
    (h : spec.output? = some first) : ∃ rest, spec.entries = .operator first :: rest := by
  obtain ⟨others, hothers⟩ : ∃ others, spec.operators = first :: others := by
    unfold Spec.output? at h
    cases hlist : spec.operators with
    | nil =>
      rw [hlist] at h
      cases h
    | cons o others =>
      rw [hlist] at h
      exact ⟨others, by rw [Option.some.inj h]⟩
  rw [Spec.entries, hothers]
  exact ⟨_, rfl⟩

/-- A copy that is built is given out by the node of the last of its operators and streams that has
the name of the first operator, which need not be the node of the first operator. That one has the
first node of the copy, and it is given out exactly if no other entry has its name. -/
theorem output_node (s s' : Session) (subflow : Subflow) (index : Nat) (h : Handle)
    (hcopy : Compile.instantiate subflow index s = .ok h s') :
    ∃ above first rest, s.scopes.scope? subflow.scope = some above ∧
      subflow.spec.entries = .operator first :: rest ∧
      let start := s.forked subflow.scope above index
      let child := s.scopes.size
      (∃ t, Compile.operator child first start = .ok s.graph.size t) ∧
      (∃ before last after t t', subflow.spec.entries = before ++ last :: after ∧
        last.id = first.id ∧ (∀ e ∈ after, e.id ≠ first.id) ∧
        Compile.entries child before start = .ok () t ∧ Compile.entry child last t = .ok h t') ∧
      (h = s.graph.size ↔ ∀ e ∈ rest, e.id ≠ first.id) := by
  obtain ⟨above, first, t, habove, houtput, hspec, hnode⟩ := Compile.of_instantiate hcopy
  obtain ⟨rest, hrest⟩ := Spec.entries_of_output? houtput
  obtain ⟨⟨t', hentries⟩, hseen⟩ := Compile.entries_of_specification hspec
  refine ⟨above, first, rest, habove, hrest, ?_⟩
  intro start child
  have hmem : Entry.operator first ∈ subflow.spec.entries := by
    rw [hrest]
    exact List.mem_cons_self
  obtain ⟨before, last, after, hlist, hid, hafter⟩ :
      ∃ before last after, subflow.spec.entries = before ++ last :: after ∧ last.id = first.id ∧
        ∀ e ∈ after, e.id ≠ first.id := exists_last ⟨_, hmem, rfl⟩
  -- The copy is given out by the last entry with the name.
  have hh : h = s.graph.size + before.length := by
    rw [hseen, hlist, ← hid] at hnode
    rw [recorded_last (hid ▸ hafter)] at hnode
    exact (Option.some.inj hnode).symm
  refine ⟨?_, ⟨before, last, after, ?_⟩, ?_⟩
  · rw [hrest, ← List.nil_append (_ :: rest)] at hentries
    obtain ⟨u, u', hnil, hfirst⟩ := Compile.exists_entry hentries
    cases hnil
    exact ⟨u', hfirst⟩
  · rw [hlist] at hentries
    obtain ⟨u, u', hbefore, hlast⟩ := Compile.exists_entry hentries
    exact ⟨u, u', hlist, hid, hafter, hbefore, hh ▸ hlast⟩
  · -- The first operator is the last entry with its name if nothing stands before that entry.
    have hsplit := hrest.symm.trans hlist
    rw [hh]
    cases before with
    | nil =>
      obtain ⟨-, rfl⟩ := List.cons.inj hsplit
      exact iff_of_true rfl hafter
    | cons b before =>
      obtain ⟨-, rfl⟩ := List.cons.inj hsplit
      refine iff_of_false (by simp) fun hnone => hnone last ?_ hid
      exact List.mem_append_right _ List.mem_cons_self

/-- A nested specification of these operators, met at the root. -/
def nestedOperators (ids : List String) : Subflow :=
  ⟨⟨ids.map .named, [], []⟩, ScopeTree.rootId⟩

/-- A copy with different names is given out by its first operator. -/
theorem output_node_distinct :
    let s := Session.new none .empty 64
    ∃ h s' t, Compile.instantiate (nestedOperators ["a", "b"]) 0 s = .ok h s' ∧
      Compile.operator 1 (.named "a") (s.forked ScopeTree.rootId (.fresh none [] none) 0) =
        .ok h t := by
  intro s
  obtain ⟨s', hcopy⟩ : ∃ s', Compile.instantiate (nestedOperators ["a", "b"]) 0 s = .ok 0 s' :=
    Compile.answer?_eq_some.mp (by decide +kernel)
  obtain ⟨above, first, rest, habove, hrest, ⟨t, ht⟩, -⟩ :=
    output_node s s' (nestedOperators ["a", "b"]) 0 0 hcopy
  cases habove
  cases hrest
  exact ⟨0, s', t, hcopy, ht⟩

/-- A second operator with the name of the first takes its place. -/
theorem output_not_always_first :
    ¬ ∀ (library : Option Library) (transforms : Registry) (depthLimit : Nat)
        (ops : List Operation) (subflow : Subflow) (index : Nat) (h : Handle) (s' : Session)
        (above : Scope) (first : OperatorSpec),
      let s := (Session.new library transforms depthLimit).run ops
      Compile.instantiate subflow index s = .ok h s' →
        s.scopes.scope? subflow.scope = some above → subflow.spec.output? = some first →
        ∃ t, Compile.operator s.scopes.size first (s.forked subflow.scope above index) =
          .ok h t := by
  intro hall
  obtain ⟨s', hcopy⟩ : ∃ s', Compile.instantiate (nestedOperators ["a", "a"]) 0
      (Session.new none .empty 64) = .ok 1 s' := Compile.answer?_eq_some.mp (by decide +kernel)
  obtain ⟨t, ht⟩ := hall none .empty 64 [] (nestedOperators ["a", "a"]) 0 1 s' _ _ hcopy rfl rfl
  have hfirst := Compile.answer?_eq_some.mpr ⟨t, ht⟩
  exact absurd hfirst (by decide +kernel)

end Dataflow
