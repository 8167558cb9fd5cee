import Dataflow.Proofs.MirroredCopies

/-!
# Copies are isolated

An attempt to make a copy of a nested specification leaves the session as it was, or it adds one
scope and whatever is done for the copy (`Session.AddsCopy`), also where the copy fails half-way. No
table of a scope that was there before is changed, no node is changed but for targets that it gets,
and all that is added to the graph leads to new nodes. The main result is `instances_isolated`.

It needs no argument of its own: `Twins.instantiate_alike` compares two sessions that look the same,
and here they are the same session twice.
-/

namespace Dataflow

/-- From one session to another a copy has been added below a scope. Apart from this, scopes and
nodes are as they were, but for the list of forks of the one scope and for new targets of nodes. -/
structure Session.AddsCopy (s : Session) (parent : ScopeId) (index : Nat) (s' : Session) :
    Prop where
  known : parent < s.scopes.size
  /-- There is one scope more. -/
  scopes_size : s'.scopes.size = s.scopes.size + 1
  /-- It is below the scope, and its item path goes on with the index. -/
  added : ∃ sc, s'.scopes.scope? s.scopes.size = some sc ∧ sc.parent = some parent ∧
    sc.itemPath = s.scopes.itemPath parent ++ [index] ∧ sc.itemPath.length ≤ s.depthLimit
  /-- The scopes before are as they were, and the new one is the last fork of the one above it. -/
  scopes : ∀ id sc, s.scopes.scope? id = some sc → s'.scopes.scope? id =
    some (if parent = id then { sc with forks := sc.forks ++ [s.scopes.size] } else sc)
  /-- The nodes before are as they were, but for targets that they get, which are new. -/
  nodes : ∀ h n, s.graph.node? h = some n → ∃ targets,
    s'.graph.node? h = some { n with targets := n.targets ++ targets } ∧
      ∀ target ∈ targets, s.graph.size ≤ target ∧ target < s'.graph.size
  /-- All new edges end at new nodes. -/
  edges : ∃ edges, s'.graph.edges = s.graph.edges ++ edges ∧
    ∀ e ∈ edges, s.graph.size ≤ e.target ∧ e.target < s'.graph.size
  listeners : s.graph.listeners <+: s'.graph.listeners
  loads : s.graph.loads <+: s'.graph.loads

/-! ## One session twice -/

variable {s : Session}

theorem Renaming.handle_between_self (s : Session) (h : Handle) :
    (Renaming.between s s).handle h = h := shift_self _ h

theorem Binding.rename_between_self (s : Session) (b : Binding) :
    b.rename (.between s s) = b := by
  show Binding.mk b.library ⟨shift _ _ b.context.scope, b.context.itemPath⟩ = b
  rw [shift_self]

theorem Function.rename_between_self (s : Session) (f : Function) :
    f.rename (.between s s) = f := by
  cases f with
  | comparator c =>
    show Function.comparator { c with serial := shift _ _ c.serial } = _
    rw [shift_self]
  | accessor f =>
    have hbody : f.body.rename (.between s s) = f.body := by
      cases hb : f.body with
      | path segments => rfl
      | expression e library =>
        cases library with
        | none => rfl
        | some b =>
          show Accessor.Body.expression e (some (b.rename _)) = _
          rw [Binding.rename_between_self]
    show Function.accessor { f with serial := shift _ _ f.serial, body := f.body.rename _ } = _
    rw [shift_self, hbody]

/-- A session looks the same as itself from each of its scopes. -/
def Session.twice (s : Session) (parent : ScopeId) (known : parent < s.scopes.size)
    (targets : s.graph.TargetsExist) : Twins where
  here := s
  there := s
  parent := parent
  transforms := rfl
  depthLimit := rfl
  graph_size_le := Nat.le_refl _
  scopes_size_le := Nat.le_refl _
  known := known
  itemPath := rfl
  library := rfl
  nodes id := by
    cases s.scopes.node? parent id with
    | none => rfl
    | some h => exact congrArg some (Renaming.handle_between_self s h).symm
  functions key := by
    cases s.scopes.function? parent key with
    | none => rfl
    | some f => exact congrArg some (Function.rename_between_self s f).symm
  targets_here := targets
  targets_there := targets

/-- A session with a copy has only the copy added. -/
theorem Twins.Begun.addsCopy {w : Twins} {index : Nat} {c : Copy} (h : w.Begun index c) :
    w.here.AddsCopy w.parent index (w.hereWith c) := by
  refine ⟨w.known, Session.scopes_size_joined, ?_, ?_, ?_, ?_, ?_, ?_⟩
  · exact ⟨c.scope, Session.scope?_joined_last, h.sound.parent, h.itemPath, h.depth⟩
  · intro id sc hsc
    have hid : id < w.here.scopes.size := (List.getElem?_eq_some_iff.mp hsc).choose
    rw [hereWith, Session.scope?_joined hid, hsc]
    rfl
  · intro handle n hn
    have hlt : handle < w.here.graph.size := (List.getElem?_eq_some_iff.mp hn).choose
    refine ⟨c.growth.targets handle, ?_, fun target ht => ?_⟩
    · show (w.here.graph.grow c.growth).node? handle = _
      rw [Graph.node?_grow hlt, hn]
      rfl
    · rw [w.size_hereWith]
      exact h.sound.inward.targets handle target ht
  · refine ⟨c.growth.edges, rfl, fun e he => ?_⟩
    rw [w.size_hereWith]
    exact h.sound.inward.edges e he
  · exact List.prefix_append _ _
  · exact List.prefix_append _ _

/-! ## Attempts -/

/-- How an attempt to make a copy may end without a trace outside of the copy. Nothing is done at
all; or the copy fails half-way, with an error in one of its entries; or it is made, and the answer
is a new node, which the new scope records for the entry that stands for the copy. -/
def Session.IsolatedEnd (s : Session) (subflow : Subflow) (index : Nat) :
    EStateM.Result CompileError Session Handle → Prop
  | .error e s' =>
    (e = .emptySubflow ∨ e = .subflowDepthExceeded s.depthLimit ∨
        e = .scopeNotFound subflow.scope) ∧ s' = s ∨
      (∃ id source, e = .inOperator id source) ∧ s.AddsCopy subflow.scope index s'
  | .ok h s' =>
    s.AddsCopy subflow.scope index s' ∧ (s.graph.size ≤ h ∧ h < s'.graph.size) ∧
      ∃ output sc, subflow.spec.output? = some output ∧
        s'.scopes.scope? s.scopes.size = some sc ∧ sc.nodes.get? output.id = some h

theorem Twins.InstanceAlike.isolatedEnd {w : Twins} {subflow : Subflow} {index : Nat}
    {x y : EStateM.Result CompileError Session Handle} (hscope : subflow.scope = w.parent)
    (halike : w.InstanceAlike subflow index x y) : w.here.IsolatedEnd subflow index x := by
  unfold Session.IsolatedEnd
  rw [hscope]
  cases halike with
  | refused h => exact .inl ⟨h.imp_right .inl, rfl⟩
  | stopped begun h => exact .inr ⟨h, begun.addsCopy⟩
  | made begun stands recorded =>
    rename_i h c output
    -- The scope of the copy records only nodes of the copy.
    have hmem : h ∈ c.scope.handles :=
      Scope.mem_handles.mpr (.inl (Table.mem_values_of_get? recorded))
    have howns := begun.sound.owned h hmem
    have hlt : h < (w.hereWith c).graph.size :=
      Nat.lt_of_lt_of_eq howns.2 (w.size_hereWith c).symm
    exact ⟨begun.addsCopy, ⟨howns.1, hlt⟩, output, c.scope, stands, Session.scope?_joined_last,
      recorded⟩

theorem Session.isolatedEnd_instantiate (targets : s.graph.TargetsExist) (subflow : Subflow)
    (index : Nat) : s.IsolatedEnd subflow index (Compile.instantiate subflow index s) := by
  by_cases known : subflow.scope < s.scopes.size
  · -- The attempt is compared with itself.
    have halike := (s.twice subflow.scope known targets).instantiate_alike rfl index
    exact halike.isolatedEnd rfl
  · have hnone : s.scopes.scope? subflow.scope = none :=
      List.getElem?_eq_none (Nat.not_lt.mp known)
    rw [Compile.instantiate_run, hnone]
    cases subflow.spec.output? with
    | none => exact .inl ⟨.inl rfl, rfl⟩
    | some output =>
      dsimp only
      split
      · exact .inl ⟨.inr (.inl rfl), rfl⟩
      · exact .inl ⟨.inr (.inr rfl), rfl⟩

/-! ## Runs -/

theorem Session.targetsExist_run (h : s.graph.TargetsExist) (ops : List Operation) :
    (s.run ops).graph.TargetsExist := Session.run_graph (fun _ q hg => hg.after q) h ops

/-- A call that makes a copy, as a run of its own. -/
theorem Session.run_instantiate {subflow : Subflow} {index : Nat} {h : Handle} {s' : Session}
    (hx : Compile.instantiate subflow index s = .ok h s') :
    s.run [.instantiate subflow index] = s' := by
  refine Operation.after_of_ends (P := fun t => t = s') ?_
  show Compile.Ends (discard (Compile.instantiate subflow index)) s _ _
  rw [Compile.ends_discard, Compile.Ends, hx]

/-- After every run, an attempt to make a copy of a nested specification leaves no trace outside of
the copy, however it ends. Where it gives a node, no later call gives the same one. -/
theorem instances_isolated (library : Option Library) (transforms : Registry) (depthLimit : Nat)
    (ops : List Operation) (subflow : Subflow) (index : Nat) :
    let s := (Session.new library transforms depthLimit).run ops
    s.IsolatedEnd subflow index (Compile.instantiate subflow index s) ∧
      ∀ (later : List Operation) (other : Subflow) (j : Nat) (h h' : Handle) (s' s'' : Session),
        Compile.instantiate subflow index s = .ok h s' →
        Compile.instantiate other j (s'.run later) = .ok h' s'' → h < h' := by
  intro s
  have targets : s.graph.TargetsExist := Session.targetsExist_run Graph.targetsExist_empty ops
  have hend := s.isolatedEnd_instantiate targets subflow index
  refine ⟨hend, fun later other j h h' s' s'' hfirst hsecond => ?_⟩
  have targets' : (s'.run later).graph.TargetsExist := by
    refine Session.targetsExist_run ?_ later
    have hrun := Session.targetsExist_run targets [.instantiate subflow index]
    rwa [Session.run_instantiate hfirst] at hrun
  have hend' := (s'.run later).isolatedEnd_instantiate targets' other j
  rw [hfirst] at hend
  rw [hsecond] at hend'
  -- A node that is made later comes after all that are there by then.
  calc h < s'.graph.size := hend.2.1.2
    _ ≤ (s'.run later).graph.size := s'.size_le_run later
    _ ≤ h' := hend'.2.1.1

/-- A nested specification that is met at the root, of one operator that refers to an entry. -/
def referring (entry : String) : Subflow where
  spec := ⟨[{ OperatorSpec.named "b" with
    params := some (Table.empty.insert "x" (.object [("$ref", .string entry)])) }], [], []⟩
  scope := ScopeTree.rootId

/-- The node that an attempt to make a copy has given. -/
def Compile.answer? : EStateM.Result CompileError Session Handle → Option Handle
  | .ok h _ => some h
  | .error .. => none

theorem Compile.answer?_eq_some {x : EStateM.Result CompileError Session Handle} {h : Handle} :
    answer? x = some h ↔ ∃ s, x = .ok h s := by
  cases x with
  | ok h' s => simp [answer?]
  | error e s => simp [answer?]

/-- Two copies that refer to the same operator have nodes of their own. -/
theorem instances_isolated_pair :
    let s := (Session.new none .empty 64).run [.compile ⟨[.named "a"], [], []⟩]
    ∃ h h' s' s'', Compile.instantiate (referring "a") 0 s = .ok h s' ∧
      Compile.instantiate (referring "a") 1 s' = .ok h' s'' ∧
      s.AddsCopy ScopeTree.rootId 0 s' ∧ h < h' := by
  intro s
  obtain ⟨hend, hlater⟩ := instances_isolated none .empty 64
    [.compile ⟨[.named "a"], [], []⟩] (referring "a") 0
  obtain ⟨s', hfirst⟩ : ∃ s', Compile.instantiate (referring "a") 0 s = .ok 1 s' :=
    Compile.answer?_eq_some.mp (by decide +kernel)
  obtain ⟨s'', hsecond⟩ : ∃ s'', Compile.instantiate (referring "a") 1 s' = .ok 2 s'' := by
    rw [← Session.run_instantiate hfirst]
    exact Compile.answer?_eq_some.mp (by decide +kernel)
  refine ⟨1, 2, s', s'', hfirst, hsecond, ?_, hlater [] (referring "a") 1 1 2 s' s'' hfirst hsecond⟩
  have hend' : s.IsolatedEnd (referring "a") 0 (.ok 1 s') := hfirst ▸ hend
  exact hend'.1

end Dataflow
