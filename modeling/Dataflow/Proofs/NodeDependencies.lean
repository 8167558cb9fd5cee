import Dataflow.Graph.Summary
import Dataflow.Proofs.HeldHandles
import Dataflow.Proofs.ParameterPlaces

/-!
# Nodes are what they were declared to be

A request that makes a node declares what the node is, its parameters, and whether it reacts to
them. All edges but parent edges are determined by these declarations: `Declaration.dependencies`
are the edges into a node that is made. `shape_after` says once what any request does to nodes and
edges, and `Represented` is the invariant that follows: the edges into each node are those that its
declaration calls for, and no node has a target twice.

The main result is `nodes_as_declared`. After every run of requests, refused ones included, the
nodes are those that were asked for, in this order, with the operators in their parameters and the
parents of streams as their dependencies.
-/

namespace Dataflow

/-! ## Declarations -/

/-- What is fixed about a node when it is made. -/
structure Declaration where
  kind : NodeKind
  params : Parameters
  react : Bool

/-- What the node was declared to be. -/
def Node.declaration (n : Node) : Declaration := ⟨n.kind, n.params, n.react⟩

/-- What a request declares, if it makes a node. -/
def Request.declaration? : Request → Option Declaration
  | .add behavior params react => some ⟨.operator behavior, params, react⟩
  | .stream source params => some ⟨.stream source, params, true⟩
  | _ => none

namespace Declaration

/-- The node as it is made. -/
def node (d : Declaration) : Node := .fresh d.kind d.params d.react

/-- The edges that the node is made with, if it is made as node `handle`: an operator that reacts
depends on the operators in its parameters, and a stream on its parent. -/
def dependencies (d : Declaration) (handle : Handle) : List Edge :=
  match d.kind with
  | .operator _ => if d.react then Graph.paramEdges handle d.params else []
  | .stream source => source.parent.toList.map (⟨·, handle, .stream⟩)

variable {d : Declaration} {handle : Handle} {e : Edge}

theorem dependencies_operator {behavior : Behavior} (hkind : d.kind = .operator behavior) :
    d.dependencies handle = if d.react then Graph.paramEdges handle d.params else [] := by
  rw [dependencies, hkind]

theorem dependencies_stream {source : EventSource} (hkind : d.kind = .stream source) :
    d.dependencies handle = source.parent.toList.map (⟨·, handle, .stream⟩) := by
  rw [dependencies, hkind]

/-- An edge that a node is made with comes from a parameter of an operator that reacts, or from the
parent of a stream. -/
theorem of_mem_dependencies (he : e ∈ d.dependencies handle) :
    e.target = handle ∧
      ((∃ behavior name, d.kind = .operator behavior ∧ d.react = true ∧
          e.dependency = .param name) ∨
        ∃ source, d.kind = .stream source ∧ source.parent = some e.source ∧
          e.dependency = .stream) := by
  cases hkind : d.kind with
  | operator behavior =>
    rw [dependencies_operator hkind] at he
    cases hreact : d.react with
    | false =>
      rw [hreact] at he
      exact nomatch he
    | true =>
      rw [hreact] at he
      obtain ⟨p, -, rfl⟩ := List.mem_map.mp he
      exact ⟨rfl, .inl ⟨behavior, p.1, rfl, rfl, rfl⟩⟩
  | stream source =>
    rw [dependencies_stream hkind] at he
    obtain ⟨p, hp, rfl⟩ := List.mem_map.mp he
    exact ⟨rfl, .inr ⟨source, rfl, Option.mem_toList.mp hp, rfl⟩⟩

/-- None of the edges that a node is made with is a parent edge. -/
theorem not_parent_of_mem_dependencies (he : e ∈ d.dependencies handle) :
    e.dependency ≠ .parent := by
  obtain ⟨-, ⟨_, name, -, -, h⟩ | ⟨_, -, -, h⟩⟩ := of_mem_dependencies he
  · simp [h]
  · simp [h]

end Declaration

namespace Graph

variable {g : Graph}

/-- What the nodes were declared to be, oldest first. -/
def declarations (g : Graph) : List Declaration := g.nodes.map Node.declaration

/-- The edges into a node, oldest first, but for parent edges. -/
def inputs (g : Graph) (handle : Handle) : List Edge :=
  g.edges.filter fun e => e.target == handle && e.dependency != .parent

/-- The edges into a node that parameters of the node gave rise to. -/
def paramInputs (g : Graph) (handle : Handle) : List Edge :=
  g.edges.filter fun e => e.target == handle && e.dependency.name?.isSome

/-- The edges into a node from streams that it is derived from. -/
def streamInputs (g : Graph) (handle : Handle) : List Edge :=
  g.edges.filter fun e => e.target == handle && e.dependency == .stream

/-- What is declared to the graph by a request, which makes a node only if it is carried out. -/
def made (g : Graph) (r : Request) : List Declaration :=
  match g.refusal? r with
  | none => r.declaration?.toList
  | some _ => []

/-! ## What a request does to nodes and edges -/

/-- A request makes a node as declared, or it makes none: then at most the targets and the records
of one node are changed, and at most parent edges are added. -/
theorem shape_after (g : Graph) (r : Request) :
    (∃ d, g.made r = [d] ∧ (g.after r).nodes = g.nodes ++ [d.node] ∧
      (g.after r).edges = g.edges ++ d.dependencies g.size) ∨
    (g.made r = [] ∧ ∃ handle f parent children,
      (∀ n, (f n).declaration = n.declaration ∧ (n.targets.Nodup → (f n).targets.Nodup)) ∧
      (g.after r).nodes = g.nodes.modify handle f ∧
      (g.after r).edges = g.edges ++ parentEdges parent children) := by
  -- To leave all nodes alone is to change none of them.
  have hid : g.nodes = g.nodes.modify 0 id := (List.modify_id 0 g.nodes).symm
  have hnone : g.edges = g.edges ++ parentEdges 0 [] := (List.append_nil g.edges).symm
  have hkept : ∀ n : Node,
      (id n).declaration = n.declaration ∧ (n.targets.Nodup → (id n).targets.Nodup) :=
    fun _ => ⟨rfl, id⟩
  unfold after made
  cases g.refusal? r with
  | some e =>
    obtain ⟨parent, children, he⟩ := g.refused_eq_linked r
    refine .inr ⟨rfl, 0, id, parent, children, hkept, ?_, ?_⟩
    · simp only [he, linked]
      exact hid
    · simp only [he, linked]
  | none =>
    cases r with
    | add behavior params react => exact .inl ⟨_, rfl, rfl, rfl⟩
    | stream source params => exact .inl ⟨_, rfl, rfl, rfl⟩
    | connect parent children => exact .inr ⟨rfl, 0, id, parent, children, hkept, hid, rfl⟩
    | addTarget source target =>
      refine .inr ⟨rfl, source, _, 0, [], fun n => ?_, rfl, hnone⟩
      split
      · exact ⟨rfl, id⟩
      · -- The target is appended only where it is missing.
        rename_i hmissing
        refine ⟨rfl, fun hn => List.nodup_append.mpr ⟨hn, by simp, ?_⟩⟩
        intro a ha b hb hab
        obtain rfl := List.mem_singleton.mp hb
        exact hmissing (hab ▸ ha)
    | listen l => exact .inr ⟨rfl, 0, id, 0, [], hkept, hid, hnone⟩
    | ingest node data format =>
      exact .inr ⟨rfl, node, fun n => { n with records := n.records ++ Edit.ingested data }, 0, [],
        fun _ => ⟨rfl, id⟩, rfl, hnone⟩
    | fetch node resource format => exact .inr ⟨rfl, 0, id, 0, [], hkept, hid, hnone⟩
    | pulse node changes =>
      exact .inr ⟨rfl, node, fun n => { n with records := changes.apply n.records }, 0, [],
        fun _ => ⟨rfl, id⟩, rfl, hnone⟩

/-- Declarations do not change. Those of new nodes are appended. -/
theorem declarations_after (g : Graph) (r : Request) :
    (g.after r).declarations = g.declarations ++ g.made r := by
  obtain ⟨d, hmade, hnodes, -⟩ | ⟨hmade, handle, f, _, _, hf, hnodes, -⟩ := g.shape_after r
  · rw [declarations, hnodes, hmade, List.map_append]
    rfl
  · have hdecl : ∀ n, (f n).declaration = id n.declaration := fun n => (hf n).1
    rw [declarations, hnodes, hmade, List.map_modify hdecl, List.modify_id, List.append_nil]
    rfl

/-- A declaration that was not there before is that of the request. -/
theorem mem_declarations_after {r : Request} {d : Declaration}
    (h : d ∈ (g.after r).declarations) : d ∈ g.declarations ∨ r.declaration? = some d := by
  rw [declarations_after, List.mem_append] at h
  refine h.imp (fun h => h) fun hmade => ?_
  unfold made at hmade
  split at hmade
  · exact Option.mem_toList.mp hmade
  · exact nomatch hmade

theorem mem_declarations_foldl {requests : List Request} {d : Declaration}
    (h : d ∈ (requests.foldl after g).declarations) :
    d ∈ g.declarations ∨ ∃ r ∈ requests, r.declaration? = some d := by
  induction requests generalizing g with
  | nil => exact .inl h
  | cons r rest ih =>
    obtain h | ⟨q, hq, hd⟩ := ih h
    · exact (mem_declarations_after h).imp (fun h => h) fun hd => ⟨r, List.mem_cons_self, hd⟩
    · exact .inr ⟨q, List.mem_cons_of_mem _ hq, hd⟩

@[simp] theorem length_declarations (g : Graph) : g.declarations.length = g.size :=
  List.length_map _

/-! ## The invariant -/

/-- The edges into each node are those that its declaration calls for, and no target is there
twice. -/
structure Represented (g : Graph) : Prop where
  inputs : ∀ handle,
    g.inputs handle = (g.declarations[handle]?.map fun d => d.dependencies handle).getD []
  targets : ∀ n ∈ g.nodes, n.targets.Nodup

theorem represented_empty : Graph.empty.Represented where
  inputs := fun _ => rfl
  targets := fun _ h => nomatch h

theorem inputs_of_append {g' : Graph} {edges : List Edge} (h : g'.edges = g.edges ++ edges)
    (handle : Handle) : g'.inputs handle = g.inputs handle ++
      edges.filter fun e => e.target == handle && e.dependency != .parent := by
  rw [inputs, h, List.filter_append]
  rfl

/-- All edges that a node is made with lead into this node. -/
theorem filter_dependencies (d : Declaration) (made handle : Handle) :
    ((d.dependencies made).filter fun e => e.target == handle && e.dependency != .parent) =
      if handle = made then d.dependencies made else [] := by
  split
  · rename_i heq
    refine List.filter_eq_self.mpr fun e he => ?_
    simp [(Declaration.of_mem_dependencies he).1, heq,
      Declaration.not_parent_of_mem_dependencies he]
  · rename_i hne
    refine List.filter_eq_nil_iff.mpr fun e he => ?_
    have hother : ¬ made = handle := fun h => hne h.symm
    simp [(Declaration.of_mem_dependencies he).1, hother]

theorem filter_parentEdges (parent : Handle) (children : List Handle) (handle : Handle) :
    ((parentEdges parent children).filter fun e =>
      e.target == handle && e.dependency != .parent) = [] := by
  refine List.filter_eq_nil_iff.mpr fun e he => ?_
  obtain ⟨child, -, rfl⟩ := List.mem_map.mp he
  simp

/-- The declaration at a place after one more has been appended. -/
theorem getElem?_declarations_append (g : Graph) (d : Declaration) (handle : Handle) :
    (g.declarations ++ [d])[handle]? =
      if handle = g.size then some d else g.declarations[handle]? := by
  split
  · rename_i heq
    rw [heq, ← length_declarations, List.getElem?_concat_length]
  · rename_i hne
    by_cases hlt : handle < g.declarations.length
    · exact List.getElem?_append_left hlt
    · -- Both lists have come to an end before.
      have hge : g.declarations.length ≤ handle := Nat.not_lt.mp hlt
      have hgt : g.size < handle :=
        Nat.lt_of_le_of_ne (g.length_declarations ▸ hge) fun h => hne h.symm
      rw [List.getElem?_eq_none hge, List.getElem?_eq_none]
      rw [List.length_append, length_declarations]
      exact hgt

/-- New nodes and their edges are as declared, whatever is asked for. -/
theorem Represented.after (hg : g.Represented) (r : Request) : (g.after r).Represented := by
  have hdecl := g.declarations_after r
  obtain ⟨d, hmade, hnodes, hedges⟩ | ⟨hmade, node, f, parent, children, hf, hnodes, hedges⟩ :=
    g.shape_after r
  · refine ⟨fun handle => ?_, fun n hn => ?_⟩
    · rw [inputs_of_append hedges, hg.inputs, filter_dependencies, hdecl, hmade,
        getElem?_declarations_append]
      split
      · -- There was nothing at the place of the new node.
        rename_i heq
        have hbefore : g.declarations[g.size]? = none :=
          List.getElem?_eq_none (Nat.le_of_eq g.length_declarations)
        rw [heq, hbefore]
        rfl
      · exact List.append_nil _
    · rw [hnodes, List.mem_append, List.mem_singleton] at hn
      obtain hn | rfl := hn
      · exact hg.targets n hn
      · exact List.nodup_nil
  · refine ⟨fun handle => ?_, fun n hn => ?_⟩
    · rw [inputs_of_append hedges, hg.inputs, filter_parentEdges, hdecl, hmade, List.append_nil,
        List.append_nil]
    · rw [hnodes] at hn
      obtain hn | ⟨m, hm, rfl⟩ := List.mem_of_mem_modify hn
      · exact hg.targets n hn
      · exact (hf m).2 (hg.targets m hm)

theorem Represented.performAll (hg : g.Represented) (requests : List Request) :
    (g.performAll requests).Represented := by
  rw [performAll_eq]
  induction requests generalizing g with
  | nil => exact hg
  | cons r rest ih => exact ih (hg.after r)

/-! ## Edges by their kind -/

variable {handle : Handle} {d : Declaration}

theorem mem_inputs_of_mem {e : Edge} (he : e ∈ g.edges) (h : e.dependency ≠ .parent) :
    e ∈ g.inputs e.target :=
  List.mem_filter.mpr ⟨he, by simp [h]⟩

/-- An edge that is no parent edge is called for by the declaration of its target. -/
theorem Represented.exists_declaration (hg : g.Represented) {e : Edge} (he : e ∈ g.edges)
    (h : e.dependency ≠ .parent) :
    ∃ d, g.declarations[e.target]? = some d ∧ e ∈ d.dependencies e.target := by
  have hin := mem_inputs_of_mem he h
  rw [hg.inputs] at hin
  cases hd : g.declarations[e.target]? with
  | none =>
    rw [hd] at hin
    exact nomatch hin
  | some d =>
    rw [hd] at hin
    exact ⟨d, rfl, hin⟩

theorem paramInputs_eq (g : Graph) (handle : Handle) :
    g.paramInputs handle = (g.inputs handle).filter fun e => e.dependency.name?.isSome := by
  rw [paramInputs, inputs, List.filter_filter]
  refine List.filter_congr fun e _ => ?_
  cases e.dependency <;> simp [Dependency.name?]

theorem streamInputs_eq (g : Graph) (handle : Handle) :
    g.streamInputs handle = (g.inputs handle).filter fun e => e.dependency == .stream := by
  rw [streamInputs, inputs, List.filter_filter]
  refine List.filter_congr fun e _ => ?_
  by_cases h : e.dependency = .stream
  · simp [h]
  · rw [beq_eq_false_iff_ne.mpr h, Bool.and_false, Bool.false_and]

theorem Represented.inputs_of_declaration (hg : g.Represented)
    (h : g.declarations[handle]? = some d) : g.inputs handle = d.dependencies handle := by
  rw [hg.inputs, h]
  rfl

/-- An operator that reacts depends on the operators in its parameters. -/
theorem Represented.paramInputs_of_react (hg : g.Represented)
    (h : g.declarations[handle]? = some d) {behavior : Behavior}
    (hkind : d.kind = .operator behavior) (hreact : d.react = true) :
    g.paramInputs handle = paramEdges handle d.params := by
  rw [paramInputs_eq, hg.inputs_of_declaration h, Declaration.dependencies_operator hkind,
    if_pos hreact]
  refine List.filter_eq_self.mpr fun e he => ?_
  obtain ⟨p, -, rfl⟩ := List.mem_map.mp he
  rfl

/-- A stream depends on its parent. -/
theorem Represented.streamInputs_of_stream (hg : g.Represented)
    (h : g.declarations[handle]? = some d) {source : EventSource}
    (hkind : d.kind = .stream source) :
    g.streamInputs handle = source.parent.toList.map (⟨·, handle, .stream⟩) := by
  rw [streamInputs_eq, hg.inputs_of_declaration h, Declaration.dependencies_stream hkind]
  refine List.filter_eq_self.mpr fun e he => ?_
  obtain ⟨p, -, rfl⟩ := List.mem_map.mp he
  rfl

/-- Parameters give rise to edges into operators that react only, and only streams have edges from
streams. -/
theorem Represented.kind_of_edge (hg : g.Represented) {e : Edge} (he : e ∈ g.edges) :
    (∀ name, e.dependency = .param name → ∃ d behavior, g.declarations[e.target]? = some d ∧
      d.kind = .operator behavior ∧ d.react = true) ∧
    (e.dependency = .stream → ∃ d source, g.declarations[e.target]? = some d ∧
      d.kind = .stream source ∧ source.parent = some e.source) := by
  refine ⟨fun name hparam => ?_, fun hstream => ?_⟩
  · obtain ⟨d, hd, hmem⟩ := hg.exists_declaration he (by simp [hparam])
    obtain ⟨-, ⟨behavior, _, hkind, hreact, -⟩ | ⟨_, -, -, hstream⟩⟩ :=
      Declaration.of_mem_dependencies hmem
    · exact ⟨d, behavior, hd, hkind, hreact⟩
    · exact nomatch hparam.symm.trans hstream
  · obtain ⟨d, hd, hmem⟩ := hg.exists_declaration he (by simp [hstream])
    obtain ⟨-, ⟨_, _, -, -, hparam⟩ | ⟨source, hkind, hsource, -⟩⟩ :=
      Declaration.of_mem_dependencies hmem
    · exact nomatch hparam.symm.trans hstream
    · exact ⟨d, source, hd, hkind, hsource⟩

/-! ## Runs -/

/-- The nodes that a run of requests makes, in order: the handle that answers the request, and what
was asked for. -/
def creations (g : Graph) : List Request → List (Handle × Declaration)
  | [] => []
  | r :: rest =>
    match perform r g with
    | .ok handle g' => (r.declaration?.map (handle, ·)).toList ++ creations g' rest
    | .error _ g' => creations g' rest

/-- A node that is made has the next place. -/
theorem creations_cons (g : Graph) (r : Request) (rest : List Request) :
    g.creations (r :: rest) = (g.made r).map (g.size, ·) ++ (g.after r).creations rest := by
  rw [creations, perform_eq, made, after]
  cases g.refusal? r with
  | some e => rfl
  | none => cases r <;> rfl

/-- A run makes nodes as declared, at the places from the first free one on. -/
theorem creations_spec (g : Graph) (requests : List Request) :
    (g.performAll requests).declarations = g.declarations ++ (g.creations requests).map Prod.snd ∧
      (g.creations requests).map Prod.fst = List.range' g.size (g.creations requests).length := by
  rw [performAll_eq]
  induction requests generalizing g with
  | nil => exact ⟨(List.append_nil _).symm, rfl⟩
  | cons r rest ih =>
    obtain ⟨hdecl, hplaces⟩ := ih (g.after r)
    have hsize : (g.after r).size = g.size + (g.made r).length := by
      rw [← length_declarations, declarations_after, List.length_append, length_declarations]
    rw [creations_cons, List.foldl_cons, hdecl, declarations_after]
    refine ⟨by simp [List.map_append, Function.comp_def], ?_⟩
    rw [List.map_append, hplaces, hsize, List.map_map, List.length_append, List.length_map]
    -- At most one node is made by a request.
    obtain ⟨d, hmade, -⟩ | ⟨hmade, -⟩ := g.shape_after r
    · rw [hmade, List.length_singleton, Nat.add_comm 1, List.range'_succ]
      rfl
    · rw [hmade, List.length_nil, Nat.zero_add]
      rfl

/-- After every run of requests, refused ones included: the handles are the places of the nodes in
the order in which they were made, and the nodes are what was asked for, also after more requests.
The edges that parameters give rise to are those into the operators that react: into each of them
one from every operator that occurs in its parameters, in order. The edges between streams are those
from parents, one into each stream that has one. No target is there twice. -/
theorem nodes_as_declared (requests : List Request) :
    let g := Graph.empty.performAll requests
    let made := Graph.empty.creations requests
    (made.map Prod.fst = List.range g.size ∧ made.map Prod.snd = g.declarations ∧
      ∀ more, g.declarations <+: (g.performAll more).declarations) ∧
    ((∀ (handle : Handle) (d : Declaration) (behavior : Behavior),
        g.declarations[handle]? = some d → d.kind = .operator behavior → d.react = true →
          ∃ found, d.params.Exhausts Parameter.operator? found ∧
            g.paramInputs handle = found.map fun f => ⟨f.2.2, handle, .param f.2.1⟩) ∧
      ∀ e ∈ g.edges, ∀ name, e.dependency = .param name →
        ∃ d behavior, g.declarations[e.target]? = some d ∧ d.kind = .operator behavior ∧
          d.react = true) ∧
    ((∀ (handle : Handle) (d : Declaration) (source : EventSource),
        g.declarations[handle]? = some d → d.kind = .stream source →
          g.streamInputs handle = source.parent.toList.map (⟨·, handle, .stream⟩)) ∧
      ∀ e ∈ g.edges, e.dependency = .stream →
        ∃ d source, g.declarations[e.target]? = some d ∧ d.kind = .stream source ∧
          source.parent = some e.source) ∧
    ∀ n ∈ g.nodes, n.targets.Nodup := by
  intro g made
  have hg : g.Represented := represented_empty.performAll requests
  obtain ⟨hdecl, hplaces⟩ := Graph.empty.creations_spec requests
  have hsnd : made.map Prod.snd = g.declarations := hdecl.symm
  have hlength : made.length = g.size := by
    rw [← length_declarations, ← hsnd, List.length_map]
  refine ⟨⟨?_, hsnd, fun more => ?_⟩, ⟨?_, fun e he => (hg.kind_of_edge he).1⟩,
    ⟨?_, fun e he => (hg.kind_of_edge he).2⟩, hg.targets⟩
  · rw [← hlength, List.range_eq_range']
    exact hplaces
  · rw [(g.creations_spec more).1]
    exact List.prefix_append _ _
  · intro handle d behavior hd hkind hreact
    refine ⟨_, d.params.exhausts_occurrences fun _ => rfl, ?_⟩
    rw [hg.paramInputs_of_react hd hkind hreact, paramEdges,
      Parameters.handles_eq_occurrences, List.map_map]
    rfl
  · exact fun handle d source hd hkind => hg.streamInputs_of_stream hd hkind

/-- Parameters that refer to the first node three times, twice inside of an array. -/
def mixedParams : Parameters :=
  Table.ofList [("x", .array [.operator 0, .array [.literal .null, .operator 0]]),
    ("y", .operator 0)]

/-- Two operators, the second with these parameters, and a third that does not react to them; a
stream and one that is derived from it; a target that is added twice, and two requests that are
refused. -/
def mixedRequests : List Request :=
  let plain := Behavior.plain none none
  [.add plain .empty true, .add plain mixedParams true, .add plain mixedParams false,
    .stream ⟨none, none, none, none⟩ .empty, .stream ⟨none, none, some 3, none⟩ mixedParams,
    .addTarget 0 1, .connect 0 [1, 7], .addTarget 0 1,
    .add plain (Table.ofList [("x", .operator 7)]) true]

/-- Three edges lead into the second operator, for the three places at which it is referred to. -/
theorem nodes_as_declared_mixed :
    let g := Graph.empty.performAll mixedRequests
    g.size = 5 ∧ g.targets 0 = [1] ∧
      mixedParams.Exhausts Parameter.operator?
        [([0, 0], "x", 0), ([0, 1, 1], "x", 0), ([1], "y", 0)] ∧
      g.paramInputs 1 = [⟨0, 1, .param "x"⟩, ⟨0, 1, .param "x"⟩, ⟨0, 1, .param "y"⟩] ∧
      g.streamInputs 4 = [⟨3, 4, .stream⟩] := by
  intro g
  obtain ⟨-, ⟨hparams, -⟩, ⟨hstreams, -⟩, -⟩ := nodes_as_declared mixedRequests
  obtain ⟨found, hfound, hinputs⟩ := hparams 1 ⟨_, mixedParams, true⟩ _ rfl rfl rfl
  have hplaces : mixedParams.Exhausts Parameter.operator?
      [([0, 0], "x", 0), ([0, 1, 1], "x", 0), ([1], "y", 0)] :=
    mixedParams.exhausts_occurrences fun _ => rfl
  refine ⟨by decide, by decide, hplaces, ?_, hstreams 4 ⟨_, mixedParams, true⟩ _ rfl rfl⟩
  rw [hinputs, hfound.unique hplaces]
  rfl

end Graph

end Dataflow
