import Dataflow.Proofs.OperationRuns

/-!
# No handle dangles

A session that is built by compiling alone refers to nodes that exist and to no others: the
operations that hand over no nodes preserve `Session.Closed`. In a closed session the checks of
the graph cannot fail for what a compilation asks for, so compiling in an existing scope fails only
over what is compiled, and the graph refuses only data that it cannot load.
-/

namespace Dataflow

/-! ## What an error is about -/

namespace CompileError

/-- Below the entries around it, the error is not that a scope is missing, and the graph has a part
in it only if it cannot load data. -/
def ConcernsInput (e : CompileError) : Prop :=
  (∀ id, e.rootCause ≠ .scopeNotFound id) ∧
    ∀ source, e.rootCause = .graph source → ∃ node resource, source = .load node resource

theorem concernsInput_of_not_internal {e : CompileError} (h : e.isInternal = false) :
    e.ConcernsInput := by
  induction e with
  | inOperator id source ih => exact ih h
  | scopeNotFound id => exact nomatch h
  | graph source =>
    constructor
    · exact fun id hc => nomatch hc
    · intro source' hs
      obtain rfl := CompileError.graph.inj hs
      -- Of the errors of the graph, loading is the only one that is not internal.
      cases source with
      | load node resource => exact ⟨node, resource, rfl⟩
      | _ => exact nomatch h
  | _ =>
    constructor
    · exact fun id hc => nomatch hc
    · exact fun source hs => nomatch hs

end CompileError

/-! ## Closed sessions -/

variable {s : Session}

theorem Session.closed_new (library : Option Library) (transforms : Registry)
    (depthLimit : Nat) : (Session.new library transforms depthLimit).Closed where
  scopes := by
    intro sc hsc
    obtain rfl := List.mem_singleton.mp hsc
    exact Session.Has.nil _
  nodes := fun n hn => nomatch hn
  listeners := fun l hl => nomatch hl

/-- Operations that hand over no nodes keep a session closed. -/
theorem Session.Closed.run (hs : s.Closed) {ops : List Operation}
    (h : ∀ op ∈ ops, op.isManual = false) : (s.run ops).Closed := by
  refine Session.run_induction (P := Session.Closed) ?_ hs h
  intro s op hop hs
  have hdirect : op.isDirect = false := by
    cases op with
    | request r => exact nomatch hop
    | _ => rfl
  have hmoves : Moves True s (op.after s) := op.moves_after hdirect fun _ => ⟨hop, hs⟩
  exact hmoves.preserve (fun hm => hm.closed trivial) hs

theorem Session.Has.isSome {handles : List Handle} (h : s.Has handles) :
    ∀ handle ∈ handles, (s.graph.node? handle).isSome := by
  intro handle hmem
  have hlt : handle < s.graph.nodes.length := h handle hmem
  simp [Graph.node?, hlt]

/-- Compiling in an existing scope of a closed session fails only over what is compiled. -/
theorem Session.Closed.not_internal_of_specification (hs : s.Closed) {scope : ScopeId}
    (hscope : scope < s.scopes.size) {spec : Spec} {e : CompileError} {s' : Session}
    (he : Compile.specification scope spec s = .error e s') : e.isInternal = false := by
  have hworks : Compile.Works True scope [] (Compile.specification scope spec) fun _ => [] :=
    Compile.works_specification spec
  exact ((hworks s fun _ => ⟨hs, Session.Has.nil s⟩).error he).2 trivial hscope

/-- So does building a copy of a nested specification that was met in an existing scope. -/
theorem Session.Closed.not_internal_of_instantiate (hs : s.Closed) {subflow : Subflow}
    (hscope : subflow.scope < s.scopes.size) {index : Nat} {e : CompileError} {s' : Session}
    (he : Compile.instantiate subflow index s = .error e s') : e.isInternal = false := by
  have hends : Compile.Ends (Compile.instantiate subflow index) s (fun _ _ => True)
      fun e _ => e.isInternal = false := by
    rw [Compile.ends_instantiate]
    split
    · rfl
    · split
      · rfl
      · obtain ⟨above, habove⟩ : ∃ above, s.scopes.scope? subflow.scope = some above :=
          ⟨_, List.getElem?_eq_getElem hscope⟩
        simp only [habove]
        -- The copy is compiled in the scope that the fork has just made.
        have hclosed := hs.forked subflow.scope above index
        have hnew : s.scopes.size < (s.forked subflow.scope above index).scopes.size := by
          simp [Session.forked, ScopeTree.size]
        rename_i output _ _
        have hworks : Compile.Works True s.scopes.size [] _ fun h => [h] :=
          Compile.works_copy s.scopes.size subflow.spec output.id
        refine (hworks _ fun _ => ⟨hclosed, Session.Has.nil _⟩).mono ?_ ?_
        · exact fun _ _ _ => trivial
        · exact fun _ _ h => h.2 trivial hnew
  exact hends.error he

/-- After every run of operations that hand over no nodes, failures included, every handle that a
scope holds, or the parameters of a node or of a listener, names a node. So compiling in an existing
scope, or building a copy of a nested specification that was met in one, never fails over a scope
or a node that is missing, and the graph refuses only data that it cannot load. -/
theorem no_dangling_handles (library : Option Library) (transforms : Registry) (depthLimit : Nat)
    (ops : List Operation) (h : ∀ op ∈ ops, op.isManual = false) :
    let s := (Session.new library transforms depthLimit).run ops
    (∀ sc ∈ s.scopes.scopes, ∀ handle ∈ sc.handles, (s.graph.node? handle).isSome) ∧
      (∀ n ∈ s.graph.nodes, ∀ handle ∈ n.params.nodes, (s.graph.node? handle).isSome) ∧
      (∀ l ∈ s.graph.listeners, ∀ handle ∈ l.params.nodes, (s.graph.node? handle).isSome) ∧
      (∀ scope spec e s', scope < s.scopes.size →
        Compile.specification scope spec s = .error e s' → e.ConcernsInput) ∧
      (∀ subflow index e s', subflow.scope < s.scopes.size →
        Compile.instantiate subflow index s = .error e s' → e.ConcernsInput) := by
  intro s
  have hs : s.Closed := (Session.closed_new library transforms depthLimit).run h
  refine ⟨fun sc hsc => (hs.scopes sc hsc).isSome, fun n hn => (hs.nodes n hn).isSome,
    fun l hl => (hs.listeners l hl).isSome, ?_, ?_⟩
  · intro scope spec e s' hscope he
    exact CompileError.concernsInput_of_not_internal (hs.not_internal_of_specification hscope he)
  · intro subflow index e s' hscope he
    exact CompileError.concernsInput_of_not_internal (hs.not_internal_of_instantiate hscope he)

/-- An operator with a signal, a fork, and an operator in a scope that does not exist. -/
def strayOperator : List Operation :=
  [.compile ⟨[{ OperatorSpec.named "a" with signal := some "size", root := true }], [], []⟩,
    .fork ScopeTree.rootId 3, .operator 5 (.named "b")]

/-- The stray operator has a node that no scope refers to, and what the scopes refer to exists. -/
theorem no_dangling_handles_stray :
    let s := (Session.new none .empty 64).run strayOperator
    (∀ op ∈ strayOperator, op.isManual = false) ∧ s.graph.size = 2 ∧
      s.scopes.scopes.map Scope.handles = [[0, 0, 0], []] ∧ (s.graph.node? 0).isSome ∧
      ∀ spec e s', Compile.specification 1 spec s = .error e s' → e.ConcernsInput := by
  intro s
  have hops : ∀ op ∈ strayOperator, op.isManual = false := by
    intro op hop
    simp only [strayOperator, List.mem_cons, List.not_mem_nil, or_false] at hop
    obtain rfl | rfl | rfl := hop <;> rfl
  have hall := no_dangling_handles none .empty 64 strayOperator hops
  have hhandles : s.scopes.scopes.map Scope.handles = [[0, 0, 0], []] := by decide +kernel
  have hscope : 1 < s.scopes.size := by decide +kernel
  refine ⟨hops, by decide +kernel, hhandles, ?_, fun spec e s' => hall.2.2.2.1 1 spec e s' hscope⟩
  obtain ⟨sc, hsc, hmem⟩ : ∃ sc ∈ s.scopes.scopes, sc.handles = [0, 0, 0] := by
    have hin : [0, 0, 0] ∈ s.scopes.scopes.map Scope.handles := by
      rw [hhandles]
      exact List.mem_cons_self
    exact List.mem_map.mp hin
  exact hall.1 sc hsc 0 (by rw [hmem]; exact List.mem_cons_self)

end Dataflow
