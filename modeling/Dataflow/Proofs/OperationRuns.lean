import Dataflow.Proofs.CompileChanges

/-!
# Operations and runs

An `Operation` is one call from outside. It moves the session on whether it succeeds or fails
(`Operation.after`), and `Session.run` is what any number of calls in turn make of a session.

Every operation but a direct request to the graph is a sequence of `Move`s (`moves_after`): the
changes that compiling makes, and forks. So an invariant that each move preserves holds after every
run from a new session (`Session.run_induction`).
-/

namespace Dataflow

/-! ## Operations -/

/-- A call from outside. -/
inductive Operation where
  /-- Compiles a specification at the root. -/
  | compile (spec : Spec)
  | compileIn (scope : ScopeId) (spec : Spec)
  | operator (scope : ScopeId) (spec : OperatorSpec)
  /-- Registers any handle for an entry. -/
  | register (scope : ScopeId) (spec : OperatorSpec) (handle : Handle)
  | resolve (scope : ScopeId) (value : Json)
  | resolveReference (scope : ScopeId) (r : Reference)
  | resolveInto (scope : ScopeId) (params : Parameters) (members : List (String × Json))
  | fork (parent : ScopeId) (index : Nat)
  | instantiate (subflow : Subflow) (index : Nat)
  /-- Makes an event stream. -/
  | events (source : EventSource) (params : Parameters)
  /-- Makes any other request to the graph, past the compilation. -/
  | request (r : Request)

namespace Operation

/-- What an operation does. -/
def step : Operation → Compile Unit
  | .compile spec => Compile.specification ScopeTree.rootId spec
  | .compileIn scope spec => Compile.specification scope spec
  | .operator scope spec => discard (Compile.operator scope spec)
  | .register scope spec handle => Compile.register scope spec handle
  | .resolve scope value => discard (Compile.resolve scope value)
  | .resolveReference scope r => discard (Compile.resolveReference scope r)
  | .resolveInto scope params members => discard (Compile.resolveInto scope params members)
  | .fork parent index => discard (Compile.fork parent index)
  | .instantiate subflow index => discard (Compile.instantiate subflow index)
  | .events source params => discard (Compile.send (.stream source params))
  | .request r => discard (Compile.send r)

/-- The session after an operation that succeeds or fails. -/
def after (op : Operation) (s : Session) : Session :=
  match op.step s with
  | .ok _ s' => s'
  | .error _ s' => s'

/-- Whether an operation goes to the graph directly. -/
def isDirect : Operation → Bool
  | .request _ => true
  | _ => false

/-- Whether an operation hands over nodes that the session takes as they are. -/
def isManual : Operation → Bool
  | .register .. => true
  | .request _ => true
  | _ => false

/-- Whatever the step of an operation ends with holds afterwards. -/
theorem after_of_ends {op : Operation} {s : Session} {P : Session → Prop}
    (h : Compile.Ends op.step s (fun _ s' => P s') fun _ s' => P s') : P (op.after s) := by
  unfold after
  cases hs : op.step s with
  | ok _ s' => exact h.ok hs
  | error e s' => exact h.error hs

end Operation

/-! ## Runs -/

/-- The session after several operations in turn. -/
def Session.run (s : Session) (ops : List Operation) : Session :=
  ops.foldl (fun s op => op.after s) s

/-- What each allowed operation preserves is preserved by every run of them. -/
theorem Session.run_induction {P : Session → Prop} {allowed : Operation → Prop}
    (step : ∀ s op, allowed op → P s → P (op.after s)) {s : Session} (start : P s)
    {ops : List Operation} (h : ∀ op ∈ ops, allowed op) : P (s.run ops) := by
  induction ops generalizing s with
  | nil => exact start
  | cons op rest ih =>
    have hop : P (op.after s) := step s op (h op List.mem_cons_self) start
    exact ih hop fun o ho => h o (List.mem_cons_of_mem _ ho)

/-- A plain operator that declares its name and nothing else. -/
def OperatorSpec.named (id : String) : OperatorSpec where
  id := ⟨id⟩
  kind := plainKind
  value := none
  params := none
  update := none
  parent := none
  signal := none
  scale := none
  data := none
  root := false
  react := true

/-! ## Moves -/

/-- The session after a scope has been made below another. -/
def Session.forked (s : Session) (parent : ScopeId) (above : Scope) (index : Nat) : Session :=
  { s with
    scopes := ⟨(s.scopes.scopes.modify parent fun p =>
        { p with forks := p.forks ++ [s.scopes.size] })
      ++ [Scope.fresh (some parent) (above.itemPath ++ [index])
        (above.library.map fun b => ⟨b.library, s.scopes.size, above.itemPath ++ [index]⟩)]⟩ }

/-- One change that an operation makes. -/
inductive Move (strict : Prop) (s : Session) : Session → Prop where
  | change {scope : ScopeId} {s' : Session} (h : Change strict scope s s') : Move strict s s'
  | fork {parent : ScopeId} {above : Scope} (index : Nat)
      (h : s.scopes.scope? parent = some above) : Move strict s (s.forked parent above index)

/-- Any number of moves. -/
abbrev Moves (strict : Prop) : Session → Session → Prop := Relation.ReflTransGen (Move strict)

/-- What each move preserves is preserved by any number of them. -/
theorem Moves.preserve {strict : Prop} {P : Session → Prop} {s s' : Session}
    (h : Moves strict s s') (step : ∀ {s s'}, Move strict s s' → P s → P s') (start : P s) :
    P s' := by
  induction h with
  | refl => exact start
  | tail _ hm ih => exact step hm ih

theorem Changes.moves {strict : Prop} {scope : ScopeId} {s s' : Session}
    (h : Changes strict scope s s') : Moves strict s s' := by
  induction h with
  | refl => exact .refl
  | tail _ hc ih => exact ih.tail (.change hc)

namespace Compile

variable {strict : Prop} {s : Session}

/-- A fork fails only where there is no scope to fork. -/
theorem fork_run (parent : ScopeId) (index : Nat) (s : Session) :
    fork parent index s =
      match s.scopes.scope? parent with
      | none => .error (.scopeNotFound parent) s
      | some above => .ok s.scopes.size (s.forked parent above index) := by
  show (MonadExcept.ofExcept (s.scopes.fork parent index) >>= fun p : ScopeId × ScopeTree =>
    (do modify fun s => { s with scopes := p.2 }; return p.1 : Compile ScopeId)) s = _
  unfold ScopeTree.fork
  cases s.scopes.scope? parent <;> rfl

theorem ends_fork_forked {parent : ScopeId} {index : Nat} {done : ScopeId → Session → Prop}
    {failed : CompileError → Session → Prop} :
    Ends (fork parent index) s done failed ↔
      match s.scopes.scope? parent with
      | none => failed (.scopeNotFound parent) s
      | some above => done s.scopes.size (s.forked parent above index) := by
  unfold Ends
  rw [fork_run]
  cases s.scopes.scope? parent <;> exact Iff.rfl

/-- Every move and every failure of a step in a scope is accounted for. -/
theorem Works.moves {α : Type} {scope : ScopeId} {m : Compile α} {given : List Handle}
    {found : α → List Handle} (h : Works strict scope given m found)
    (hs : strict → s.Closed ∧ s.Has given) :
    Ends m s (fun _ s' => Moves strict s s') fun _ s' => Moves strict s s' :=
  (h s hs).mono (fun _ _ h => h.1.moves) fun _ _ h => h.1.moves

/-- Building a copy of a nested specification: the checks, the fork, and what is done in it. -/
theorem instantiate_run (subflow : Subflow) (index : Nat) (s : Session) :
    instantiate subflow index s =
      match subflow.spec.output? with
      | none => .error .emptySubflow s
      | some output =>
        if s.depthLimit < (s.scopes.itemPath subflow.scope).length + 1 then
          .error (.subflowDepthExceeded s.depthLimit) s
        else
          match s.scopes.scope? subflow.scope with
          | none => .error (.scopeNotFound subflow.scope) s
          | some above =>
            (specification s.scopes.size subflow.spec >>= fun _ => node s.scopes.size output.id)
              (s.forked subflow.scope above index) := by
  unfold instantiate
  cases subflow.spec.output? with
  | none => rfl
  | some output =>
    show (if s.depthLimit < (s.scopes.itemPath subflow.scope).length + 1 then _
      else _ : Compile Handle) s = _
    split
    · rfl
    · show (fork subflow.scope index >>= fun child =>
        specification child subflow.spec >>= fun _ => node child output.id) s = _
      rw [Graph.bind_run, fork_run]
      cases s.scopes.scope? subflow.scope <;> rfl

theorem ends_instantiate {subflow : Subflow} {index : Nat} {done : Handle → Session → Prop}
    {failed : CompileError → Session → Prop} :
    Ends (instantiate subflow index) s done failed ↔
      match subflow.spec.output? with
      | none => failed .emptySubflow s
      | some output =>
        if s.depthLimit < (s.scopes.itemPath subflow.scope).length + 1 then
          failed (.subflowDepthExceeded s.depthLimit) s
        else
          match s.scopes.scope? subflow.scope with
          | none => failed (.scopeNotFound subflow.scope) s
          | some above =>
            Ends (specification s.scopes.size subflow.spec >>= fun _ =>
              node s.scopes.size output.id) (s.forked subflow.scope above index) done failed := by
  unfold Ends
  rw [instantiate_run]
  cases subflow.spec.output? with
  | none => exact Iff.rfl
  | some output =>
    by_cases hd : s.depthLimit < (s.scopes.itemPath subflow.scope).length + 1
    · simp only [if_pos hd]
    · simp only [if_neg hd]
      cases s.scopes.scope? subflow.scope <;> exact Iff.rfl

/-- What is done in the copy only makes changes in its scope. -/
theorem works_copy (scope : ScopeId) (spec : Spec) (output : EntryId) :
    Works strict scope [] (specification scope spec >>= fun _ => node scope output)
      fun h => [h] :=
  works_bind (works_specification spec) fun _ => works_node

end Compile

/-- A fork refers to no node. -/
theorem Session.Closed.forked {s : Session} (hs : s.Closed) (parent : ScopeId) (above : Scope)
    (index : Nat) : (s.forked parent above index).Closed where
  scopes := by
    intro sc hsc
    rw [Session.forked, List.mem_append, List.mem_singleton] at hsc
    obtain hsc | rfl := hsc
    · obtain hsc | ⟨old, hold, rfl⟩ := List.mem_of_mem_modify hsc
      · exact hs.scopes sc hsc
      · -- The parent has a new fork, but its handles are those that it had.
        exact hs.scopes old hold
    · exact Session.Has.nil s
  nodes := hs.nodes
  listeners := hs.listeners

theorem Move.closed {strict : Prop} {s s' : Session} (h : Move strict s s') (hstrict : strict)
    (hs : s.Closed) : s'.Closed := by
  cases h with
  | change hc => exact hc.closed hstrict hs
  | fork index h => exact hs.forked _ _ index

namespace Operation

variable {strict : Prop} {s : Session}

/-- Every operation but a direct request is a sequence of moves. They are strict if the operation
hands over no nodes, and the session is closed. -/
theorem moves_after (op : Operation) (hd : op.isDirect = false)
    (hs : strict → op.isManual = false ∧ s.Closed) : Moves strict s (op.after s) := by
  have hclosed : strict → s.Closed ∧ s.Has [] := fun h => ⟨(hs h).2, Session.Has.nil s⟩
  refine after_of_ends ?_
  cases op with
  | compile spec => exact (Compile.works_specification spec).moves hclosed
  | compileIn scope spec => exact (Compile.works_specification spec).moves hclosed
  | operator scope spec =>
    exact (Compile.works_discard (Compile.works_operator spec)).moves hclosed
  | register scope spec handle =>
    -- The handle may name no node, so the moves are not strict.
    have hnot : strict → s.Closed ∧ s.Has [handle] := fun h => nomatch (hs h).1
    exact (Compile.works_register spec handle List.mem_cons_self).moves hnot
  | resolve scope value =>
    exact (Compile.works_discard (Compile.works_resolve value)).moves hclosed
  | resolveReference scope r =>
    exact (Compile.works_discard (Compile.works_resolveReference r)).moves hclosed
  | resolveInto scope params members =>
    exact (Compile.works_discard (Compile.works_resolveInto_any params members)).moves hclosed
  | fork parent index =>
    show Compile.Ends (discard (Compile.fork parent index)) s _ _
    rw [Compile.ends_discard, Compile.ends_fork_forked]
    cases hp : s.scopes.scope? parent with
    | none => exact .refl
    | some above => exact .single (.fork index hp)
  | instantiate subflow index =>
    show Compile.Ends (discard (Compile.instantiate subflow index)) s _ _
    rw [Compile.ends_discard, Compile.ends_instantiate]
    split
    · exact .refl
    · split
      · exact .refl
      · cases hp : s.scopes.scope? subflow.scope with
        | none => exact .refl
        | some above =>
          -- The copy is compiled in the session after the fork, which is closed if this one is.
          have hfork : Move strict s (s.forked subflow.scope above index) := .fork index hp
          have hcopy : strict → (s.forked subflow.scope above index).Closed ∧
              (s.forked subflow.scope above index).Has [] := fun h =>
            ⟨(hs h).2.forked _ _ index, Session.Has.nil _⟩
          refine ((Compile.works_copy _ _ _).moves hcopy).mono ?_ ?_
          · exact fun _ _ h => .head hfork h
          · exact fun _ _ h => .head hfork h
  | events source params =>
    show Compile.Ends (discard (Compile.send _)) s _ _
    -- The graph checks all handles of a stream, so they may come from anywhere.
    have hsent : Change strict ScopeTree.rootId s (s.sent (.stream source params)) :=
      .request rfl fun _ => Session.Has.nil s
    rw [Compile.ends_discard, Compile.ends_send]
    exact ⟨fun _ => .single (.change hsent), fun _ _ => .single (.change hsent)⟩
  | request r => exact nomatch hd

end Operation

/-! ## What every run preserves -/

/-- What moves and direct requests preserve is preserved by every run. -/
theorem Session.run_preserve {P : Session → Prop}
    (move : ∀ {s s' : Session}, Move False s s' → P s → P s')
    (request : ∀ (s : Session) (r : Request), P s → P (s.sent r)) {s : Session} (start : P s)
    (ops : List Operation) : P (s.run ops) := by
  refine Session.run_induction (fun s op (_ : True) hs => ?_) start fun _ _ => trivial
  cases hd : op.isDirect with
  | false =>
    have hmoves : Moves False s (op.after s) := op.moves_after hd fun hf => hf.elim
    exact hmoves.preserve move hs
  | true =>
    cases op with
    | request r =>
      refine Operation.after_of_ends ?_
      show Compile.Ends (discard (Compile.send r)) s _ _
      rw [Compile.ends_discard, Compile.ends_send]
      exact ⟨fun _ => request s r hs, fun _ _ => request s r hs⟩
    | _ => exact nomatch hd

/-- The graph is changed by requests only, so what these preserve is preserved by every run. -/
theorem Session.run_graph {P : Graph → Prop}
    (step : ∀ (g : Graph) (r : Request), P g → P (g.after r)) {s : Session} (start : P s.graph)
    (ops : List Operation) : P (s.run ops).graph := by
  refine Session.run_preserve (P := fun s => P s.graph) ?_ (fun s r hs => step s.graph r hs)
    start ops
  intro s s' hm hs
  cases hm with
  | fork index h => exact hs
  | change hc =>
    cases hc with
    | request other exist => exact step _ _ hs
    | attach parent child =>
      unfold Session.attached
      split
      · exact step _ _ (step _ _ hs)
      · exact step _ _ hs
    | _ => exact hs

/-- No run removes a node. -/
theorem Session.size_le_run (s : Session) (ops : List Operation) :
    s.graph.size ≤ (s.run ops).graph.size :=
  Session.run_graph (P := fun g => s.graph.size ≤ g.size)
    (fun g r h => Nat.le_trans h (g.size_le_after r)) (Nat.le_refl _) ops

end Dataflow
