import Dataflow.Proofs.OperationRuns

/-!
# Parent edges and targets agree

A structural link is told to the graph twice, as a parent edge and as a target of the parent, by
two requests. `Graph.Linked` says that the two agree. No single request for a link preserves it,
but the pair that attaches a child does: where the first is refused the second is not made, and
where the first is carried out the second cannot be refused. All other requests leave parent edges
and targets as they are.

The main result is `links_agree`: parent edges and targets agree after every run of operations
that do not go to the graph directly.
-/

namespace Dataflow

namespace Graph

/-- The parent edges and the targets of all nodes agree. -/
def Linked (g : Graph) : Prop :=
  ∀ a b, (⟨a, b, .parent⟩ : Edge) ∈ g.edges ↔ b ∈ g.targets a

variable {g : Graph}

/-! ## Targets -/

/-- A place without a node has no targets, and neither has a node made without any. -/
theorem targets_grown {node : Node} (edges : List Edge) (h : node.targets = []) (a : Handle) :
    (g.grown node edges).targets a = g.targets a := by
  unfold targets node? grown
  by_cases hlt : a < g.nodes.length
  · rw [List.getElem?_append_left hlt]
  · have hle : g.nodes.length ≤ a := Nat.not_lt.mp hlt
    rw [List.getElem?_append_right hle, List.getElem?_eq_none hle]
    -- The place is that of the new node, or one further on.
    cases a - g.nodes.length with
    | zero => simp [h]
    | succ k => simp

/-- Only the node that is changed may get other targets. -/
theorem targets_adjusted (f : Node → Node) (node a : Handle) :
    (g.adjusted node f).targets a =
      if node = a then ((g.node? a).map fun n => (f n).targets).getD [] else g.targets a := by
  unfold targets node? adjusted
  rw [List.getElem?_modify]
  cases g.nodes[a]? with
  | none => simp
  | some n =>
    by_cases h : node = a
    · simp [h]
    · simp [h]

theorem targets_adjusted_of_eq {f : Node → Node} (h : ∀ n, (f n).targets = n.targets)
    (node a : Handle) : (g.adjusted node f).targets a = g.targets a := by
  rw [targets_adjusted]
  simp only [h]
  exact ite_self _

/-- The targets of a node after one has been added. -/
theorem mem_targets_addTarget {p c a b : Handle} (hp : p < g.size) :
    b ∈ (g.carried (.addTarget p c)).targets a ↔ (a = p ∧ b = c) ∨ b ∈ g.targets a := by
  rw [carried, targets_adjusted]
  by_cases ha : p = a
  · subst ha
    obtain ⟨n, hn⟩ : ∃ n, g.node? p = some n := ⟨_, List.getElem?_eq_getElem hp⟩
    have htargets : g.targets p = n.targets := by simp [targets, hn]
    rw [if_pos rfl, htargets, hn]
    -- A target that is there already is not added again.
    by_cases hc : c ∈ n.targets
    · have hb : b = c → b ∈ n.targets := fun h => h ▸ hc
      simp only [Option.map_some, hc, if_true, Option.getD_some, true_and]
      exact ⟨.inr, fun h => h.elim hb fun h => h⟩
    · simp [hc, or_comm]
  · have hne : ¬ a = p := fun h => ha h.symm
    simp [ha, hne]

/-! ## Requests -/

theorem mem_parentEdges {parent a b : Handle} {children : List Handle} :
    (⟨a, b, .parent⟩ : Edge) ∈ parentEdges parent children ↔ a = parent ∧ b ∈ children := by
  simp only [parentEdges, List.mem_map, Edge.mk.injEq, and_true]
  constructor
  · rintro ⟨c, hc, rfl, rfl⟩
    exact ⟨rfl, hc⟩
  · rintro ⟨rfl, hb⟩
    exact ⟨b, hb, rfl, rfl⟩

theorem not_mem_paramEdges {node a b : Handle} {params : Parameters} :
    (⟨a, b, .parent⟩ : Edge) ∉ paramEdges node params := by
  simp [paramEdges]

/-- A request that links nothing changes no targets. -/
theorem targets_after {r : Request} (h : r.isLink = false) (a : Handle) :
    (g.after r).targets a = g.targets a := by
  unfold after
  split
  · cases r with
    | add behavior params react => exact targets_grown _ rfl a
    | stream source params => exact targets_grown _ rfl a
    | ingest node data format =>
      have hf : ∀ n : Node,
          ({ n with records := n.records ++ Edit.ingested data } : Node).targets = n.targets :=
        fun _ => rfl
      exact targets_adjusted_of_eq hf node a
    | pulse node changes =>
      have hf : ∀ n : Node,
          ({ n with records := changes.apply n.records } : Node).targets = n.targets :=
        fun _ => rfl
      exact targets_adjusted_of_eq hf node a
    | fetch node resource format => rfl
    | listen l => rfl
    | connect parent children => exact nomatch h
    | addTarget source target => exact nomatch h
  · obtain ⟨parent, children, he⟩ := g.refused_eq_linked r
    rw [he]
    rfl

/-- A request that links nothing makes no parent edge. -/
theorem mem_edges_after {r : Request} (h : r.isLink = false) (a b : Handle) :
    (⟨a, b, .parent⟩ : Edge) ∈ (g.after r).edges ↔ (⟨a, b, .parent⟩ : Edge) ∈ g.edges := by
  unfold after
  split
  · cases r with
    | add behavior params react =>
      cases react
      · simp [carried, grown]
      · simp [carried, grown, not_mem_paramEdges]
    | stream source params => simp [carried, grown]
    | ingest node data format => exact Iff.rfl
    | pulse node changes => exact Iff.rfl
    | fetch node resource format => exact Iff.rfl
    | listen l => exact Iff.rfl
    | connect parent children => cases h
    | addTarget source target => cases h
  · cases r with
    | connect parent children => cases h
    | _ => exact Iff.rfl

theorem Linked.after {r : Request} (hg : g.Linked) (h : r.isLink = false) :
    (g.after r).Linked := by
  intro a b
  rw [mem_edges_after h, targets_after h]
  exact hg a b

/-- A request to link a single child makes no link where it is refused. -/
theorem refused_connect_single {parent child : Handle} {e : GraphError}
    (h : g.refusal? (.connect parent [child]) = some e) :
    (g.refused (.connect parent [child])) = g := by
  by_cases hp : parent < g.size
  · -- It is the child that is missing, and no link is made before the first child.
    have hc : ¬ child < g.size := by
      intro hc
      have hnone : g.refusal? (.connect parent [child]) = none := by
        refine refusal?_eq_none (fun node hn => ?_) (by simp)
        simp only [Request.checked, List.mem_cons, List.not_mem_nil, or_false] at hn
        obtain rfl | rfl := hn
        · exact hp
        · exact hc
      rw [hnone] at h
      cases h
    simp [refused, hp, hc, linked, parentEdges]
  · simp [refused, hp]

/-! ## What the check of the graph says -/

theorem mem_children {a b : Handle} :
    b ∈ g.children a ↔ (⟨a, b, .parent⟩ : Edge) ∈ g.edges := by
  simp only [children, List.mem_map, List.mem_reverse, List.mem_filter, Bool.and_eq_true,
    beq_iff_eq]
  constructor
  · rintro ⟨⟨a', b', d⟩, ⟨he, ha, hd⟩, rfl⟩
    subst ha
    subst hd
    exact he
  · intro he
    exact ⟨_, ⟨he, rfl, rfl⟩, rfl⟩

/-- Where links agree, the check finds no mismatch. -/
theorem Linked.mismatches_eq_nil (h : g.Linked) : g.mismatches = [] := by
  -- For each node, no child is without a target and no target without a child.
  have hof : ∀ a, g.mismatchesOf a = [] := by
    intro a
    have hmem : ∀ b, b ∈ g.children a ↔ b ∈ g.targets a := fun b => mem_children.trans (h a b)
    simp only [mismatchesOf, List.append_eq_nil_iff, List.map_eq_nil_iff, List.filter_eq_nil_iff,
      decide_eq_true_eq, hmem]
    exact ⟨fun _ hb hnot => hnot hb, fun _ hb hnot => hnot hb⟩
  simp only [mismatches, List.flatMap_eq_nil_iff]
  exact fun a _ => hof a

theorem Linked.ensureConsistent (h : g.Linked) : g.ensureConsistent = .ok () := by
  simp only [Graph.ensureConsistent, h.mismatches_eq_nil]

end Graph

/-! ## Changes and runs -/

variable {strict : Prop} {s s' : Session}

/-- Attaching a child makes the edge and the target, or neither. -/
theorem Session.linked_attached (h : s.graph.Linked) (parent child : Handle) :
    (s.attached parent child).graph.Linked := by
  unfold Session.attached
  split
  · rename_i hconnect
    have hadd := Compile.refusal?_addTarget hconnect
    have hp : parent < (s.sent (.connect parent [child])).graph.size :=
      Graph.checked_lt_size hadd parent (by simp [Request.checked])
    intro a b
    -- The target is added in the graph that has the edge already.
    have hgraph : ((s.sent (.connect parent [child])).sent (.addTarget parent child)).graph =
        (s.sent (.connect parent [child])).graph.carried (.addTarget parent child) := by
      rw [Session.sent, Graph.after, hadd]
    have hlink : (s.sent (.connect parent [child])).graph =
        s.graph.linked (Graph.parentEdges parent [child]) := by
      rw [Session.sent, Graph.after, hconnect]
      rfl
    rw [hgraph, Graph.mem_targets_addTarget hp, hlink]
    show _ ∈ s.graph.edges ++ Graph.parentEdges parent [child] ↔ _ ∨ b ∈ s.graph.targets a
    rw [List.mem_append, Graph.mem_parentEdges, List.mem_singleton, h a b, or_comm]
  · rename_i e hconnect
    show (s.graph.after _).Linked
    rw [Graph.after, hconnect, Graph.refused_connect_single hconnect]
    exact h

theorem Change.linked {scope : ScopeId} (hc : Change strict scope s s') (h : s.graph.Linked) :
    s'.graph.Linked := by
  cases hc with
  | count => exact h
  | share => exact h
  | record => exact h
  | request other _ => exact h.after other
  | attach parent child => exact Session.linked_attached h parent child

theorem Move.linked (hm : Move strict s s') (h : s.graph.Linked) : s'.graph.Linked := by
  cases hm with
  | change hc => exact hc.linked h
  | fork => exact h

theorem Graph.linked_empty : Graph.empty.Linked := by
  intro a b
  simp [Graph.empty, Graph.targets, Graph.node?]

/-- After every run of operations that do not go to the graph directly, failures included, there
is a parent edge exactly where there is a target. So the graph finds itself consistent. -/
theorem links_agree (library : Option Library) (transforms : Registry) (depthLimit : Nat)
    (ops : List Operation) (h : ∀ op ∈ ops, op.isDirect = false) :
    let g := ((Session.new library transforms depthLimit).run ops).graph
    (∀ a b, (⟨a, b, .parent⟩ : Edge) ∈ g.edges ↔ b ∈ g.targets a) ∧
      g.mismatches = [] ∧ g.ensureConsistent = .ok () := by
  have hlinked : ((Session.new library transforms depthLimit).run ops).graph.Linked := by
    refine Session.run_induction (P := fun s => s.graph.Linked) ?_ Graph.linked_empty h
    intro s op hop hs
    have hmoves : Moves False s (op.after s) := op.moves_after hop fun hf => hf.elim
    exact hmoves.preserve (fun hm => hm.linked) hs
  exact ⟨hlinked, hlinked.mismatches_eq_nil, hlinked.ensureConsistent⟩

/-- Two operators, one below the other, and the attempt to register a node that does not exist
below the first. -/
def family : List Operation :=
  [.compile ⟨[.named "a", { OperatorSpec.named "b" with parent := some ⟨"a"⟩ }], [], []⟩,
    .register ScopeTree.rootId { OperatorSpec.named "c" with parent := some ⟨"a"⟩ } 7]

/-- The parent edge that is made is told as a target too. -/
theorem links_agree_family :
    (∀ op ∈ family, op.isDirect = false) ∧
      ((Session.new none .empty 64).run family).graph.edges = [⟨0, 1, .parent⟩] ∧
      1 ∈ ((Session.new none .empty 64).run family).graph.targets 0 ∧
      ((Session.new none .empty 64).run family).graph.mismatches = [] := by
  have hops : ∀ op ∈ family, op.isDirect = false := by
    intro op hop
    simp only [family, List.mem_cons, List.not_mem_nil, or_false] at hop
    obtain rfl | rfl := hop <;> rfl
  have hedges : ((Session.new none .empty 64).run family).graph.edges = [⟨0, 1, .parent⟩] := by
    decide +kernel
  have hagree := links_agree none .empty 64 family hops
  refine ⟨hops, hedges, (hagree.1 0 1).mp ?_, hagree.2.1⟩
  rw [hedges]
  exact List.mem_cons_self

end Dataflow
