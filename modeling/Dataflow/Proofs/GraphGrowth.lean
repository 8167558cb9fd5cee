import Dataflow.Proofs.ParentLinks
import Dataflow.Proofs.Renaming
import Mathlib.Data.List.Basic

/-!
# How a graph grows

A `Growth` is what a series of requests adds to a graph: new nodes, targets of nodes that were there
before, edges, listeners and loads. `Graph.grow` adds it. Requests that make nodes, or are about
nodes that the same series has made (`Request.Concerns`), change the growth and leave the rest of
the graph alone: `grow_carried` says what they add.

What they add depends on the graph before through its size only. So the same series of requests to
a larger graph adds the same, up to a renaming of the nodes that are made (`rename_carried`).
-/

namespace Dataflow

/-! ## Growth -/

/-- What is added to a graph. -/
structure Growth where
  nodes : List Node
  /-- The targets that each of the nodes before gets, oldest first. -/
  targets : Handle → List Handle
  edges : List Edge
  listeners : List Listener
  loads : List Load

namespace Growth

/-- Nothing is added. -/
def empty : Growth := ⟨[], fun _ => [], [], [], []⟩

/-- The handle names one of the new nodes, if there were `size` nodes before. -/
def Owns (a : Growth) (size : Nat) (h : Handle) : Prop := size ≤ h ∧ h < size + a.nodes.length

/-- One of the new nodes is changed. -/
def adjusted (a : Growth) (size : Nat) (h : Handle) (f : Node → Node) : Growth :=
  { a with nodes := a.nodes.modify (h - size) f }

/-- One of the nodes before gets a target, unless it has got it already. -/
def targeted (a : Growth) (source target : Handle) : Growth :=
  { a with
    targets := fun h =>
      if h = source ∧ target ∉ a.targets h then a.targets h ++ [target] else a.targets h }

/-- What is added after a request that is carried out, if there were `size` nodes before. -/
def carried (a : Growth) (size : Nat) : Request → Growth
  | .add behavior params react =>
    { a with
      nodes := a.nodes ++ [.fresh (.operator behavior) params react]
      edges := a.edges ++ if react then Graph.paramEdges (size + a.nodes.length) params else [] }
  | .connect parent children => { a with edges := a.edges ++ Graph.parentEdges parent children }
  | .addTarget source target =>
    if source < size then a.targeted source target
    else a.adjusted size source fun n =>
      if target ∈ n.targets then n else { n with targets := n.targets ++ [target] }
  | .listen l => { a with listeners := a.listeners ++ [l] }
  | .ingest node data format =>
    { a.adjusted size node fun n =>
        { n with records := n.records ++ Graph.Edit.ingested data } with
      loads := a.loads ++ [⟨node, .ingest, data, format⟩] }
  | .fetch node resource format =>
    { a with loads := a.loads ++ [⟨node, .request, resource, format⟩] }
  | .pulse node changes =>
    a.adjusted size node fun n => { n with records := changes.apply n.records }
  | .stream source params =>
    { a with
      nodes := a.nodes ++ [.fresh (.stream source) params true]
      edges := a.edges ++ source.parent.toList.map fun p => ⟨p, size + a.nodes.length, .stream⟩ }

/-- The same growth with all numbers renamed. -/
def rename (r : Renaming) (a : Growth) : Growth where
  nodes := a.nodes.map (Node.rename r)
  targets h := (a.targets h).map r.handle
  edges := a.edges.map (Edge.rename r)
  listeners := a.listeners.map (Listener.rename r)
  loads := a.loads.map (Load.rename r)

end Growth

/-- The graph with what is added. -/
def Graph.grow (g : Graph) (a : Growth) : Graph where
  nodes := (g.nodes.mapIdx fun i n => { n with targets := n.targets ++ a.targets i }) ++ a.nodes
  edges := g.edges ++ a.edges
  listeners := g.listeners ++ a.listeners
  loads := g.loads ++ a.loads

/-- Apart from making nodes, the request is about nodes of its own. -/
def Request.Concerns (own : Handle → Prop) : Request → Prop
  | .connect _ children => ∃ child, children = [child] ∧ own child
  | .addTarget _ target => own target
  | .ingest node _ _ => own node
  | .fetch node _ _ => own node
  | .pulse node _ => own node
  | _ => True

/-- Whether a request makes a node. -/
def Request.isMaking : Request → Bool
  | .add .. => true
  | .stream .. => true
  | _ => false

/-! ## The graph with what is added -/

/-- All targets are nodes. -/
def Graph.TargetsExist (g : Graph) : Prop := ∀ n ∈ g.nodes, ∀ h ∈ n.targets, h < g.size

namespace Graph

variable {g : Graph} {a : Growth} {q : Request}

@[simp] theorem size_grow (g : Graph) (a : Growth) : (g.grow a).size = g.size + a.nodes.length := by
  simp [grow, size]

@[simp] theorem grow_empty (g : Graph) : g.grow .empty = g := by
  have hnodes : (g.nodes.mapIdx fun i n =>
      { n with targets := n.targets ++ Growth.empty.targets i }) = g.nodes := by
    refine List.ext_getElem? fun i => ?_
    rw [List.getElem?_mapIdx]
    cases g.nodes[i]? <;> simp [Growth.empty]
  rw [grow, hnodes]
  simp only [Growth.empty, List.append_nil]

/-- The nodes before are as they were, but for the targets that are added. -/
theorem node?_grow {h : Handle} (hlt : h < g.size) :
    (g.grow a).node? h =
      (g.node? h).map fun n => { n with targets := n.targets ++ a.targets h } := by
  rw [node?, grow, List.getElem?_append_left (by rw [List.length_mapIdx]; exact hlt),
    List.getElem?_mapIdx]
  rfl

/-- Nodes that are made later stand after those that are made first. -/
theorem grow_append (nodes : List Node) (edges : List Edge) :
    { g.grow a with nodes := (g.grow a).nodes ++ nodes, edges := (g.grow a).edges ++ edges } =
      g.grow { a with nodes := a.nodes ++ nodes, edges := a.edges ++ edges } := by
  simp only [grow, List.append_assoc]

/-- A change of a new node is a change of what is added. -/
theorem adjusted_grow {h : Handle} (hge : g.size ≤ h) (f : Node → Node) :
    (g.grow a).adjusted h f = g.grow (a.adjusted g.size h f) := by
  have hlength : (g.nodes.mapIdx fun i n =>
      { n with targets := n.targets ++ a.targets i }).length = g.size := List.length_mapIdx
  rw [adjusted, grow, List.modify_append_of_le (Nat.le_trans (Nat.le_of_eq hlength) hge), hlength]
  rfl

/-- A target that a node before gets is added, too. Since it is a new node, the node did not have
it as a target before. -/
theorem targeted_grow {source target : Handle} (hg : g.TargetsExist) (hs : source < g.size)
    (ht : g.size ≤ target) :
    ((g.grow a).adjusted source fun n =>
      if target ∈ n.targets then n else { n with targets := n.targets ++ [target] }) =
      g.grow (a.targeted source target) := by
  have hnodes : ((g.grow a).adjusted source fun n =>
      if target ∈ n.targets then n else { n with targets := n.targets ++ [target] }).nodes =
      (g.grow (a.targeted source target)).nodes := by
    -- Node by node: of those before only the source differs, and the new ones are the same.
    refine List.ext_getElem? fun i => ?_
    rw [adjusted, List.getElem?_modify]
    by_cases hi : i < g.size
    · have hold : (g.grow a).nodes[i]? = _ := node?_grow hi
      have hnew : (g.grow (a.targeted source target)).nodes[i]? = _ := node?_grow hi
      rw [hold, hnew]
      cases hn : g.node? i with
      | none => rfl
      | some n =>
        have hfresh : target ∉ n.targets := fun hmem =>
          absurd (hg n (List.mem_of_getElem? hn) target hmem) (Nat.not_lt.mpr ht)
        by_cases hsi : source = i
        · subst hsi
          by_cases hmem : target ∈ a.targets source
          · simp [Growth.targeted, hmem]
          · simp [Growth.targeted, hmem, hfresh]
        · have his : ¬ i = source := fun h => hsi h.symm
          simp [Growth.targeted, hsi, his]
    · have hge : g.nodes.length ≤ i := Nat.not_lt.mp hi
      have hne : source ≠ i := Nat.ne_of_lt (Nat.lt_of_lt_of_le hs hge)
      simp [hne, grow, Growth.targeted, List.getElem?_append_right, hge]
  show Graph.mk _ _ _ _ = Graph.mk _ _ _ _
  exact congrArg (fun nodes => Graph.mk nodes _ _ _) hnodes

/-! ### All targets are nodes -/

theorem targetsExist_empty : Graph.empty.TargetsExist := fun _ hn => nomatch hn

/-- A node that is made has no targets yet. -/
theorem TargetsExist.grown (hg : g.TargetsExist) {node : Node} (h : node.targets = [])
    (edges : List Edge) : (g.grown node edges).TargetsExist := by
  intro n hn target ht
  rw [size_grown]
  obtain hn | hn := List.mem_append.mp hn
  · exact Nat.lt_succ_of_lt (hg n hn target ht)
  · obtain rfl := List.mem_singleton.mp hn
    rw [h] at ht
    exact nomatch ht

/-- A node may get targets that are nodes. -/
theorem TargetsExist.adjusted (hg : g.TargetsExist) {f : Node → Node}
    (hf : ∀ n, ∀ h ∈ (f n).targets, h ∈ n.targets ∨ h < g.size) (handle : Handle) :
    (g.adjusted handle f).TargetsExist := by
  intro n hn target ht
  rw [size_adjusted]
  obtain hn | ⟨old, hold, rfl⟩ := List.mem_of_mem_modify hn
  · exact hg n hn target ht
  · exact (hf old target ht).elim (hg old hold target) fun h => h

/-- Every request leaves only nodes as targets. -/
theorem TargetsExist.after (hg : g.TargetsExist) (q : Request) : (g.after q).TargetsExist := by
  unfold Graph.after
  split
  · rename_i hok
    cases q with
    | add behavior params react => exact hg.grown rfl _
    | stream source params => exact hg.grown rfl _
    | connect parent children => exact hg
    | listen l => exact hg
    | fetch node resource format => exact hg
    | pulse node changes =>
      exact hg.adjusted (f := fun n => { n with records := changes.apply n.records })
        (fun _ _ h => .inl h) node
    | ingest node data format =>
      exact hg.adjusted (f := fun n => { n with records := n.records ++ Edit.ingested data })
        (fun _ _ h => .inl h) node
    | addTarget source target =>
      refine hg.adjusted (fun n h hh => ?_) source
      split at hh
      · exact .inl hh
      · obtain hh | hh := List.mem_append.mp hh
        · exact .inl hh
        · -- The target has been checked.
          obtain rfl := List.mem_singleton.mp hh
          exact .inr (checked_lt_size hok h (by simp [Request.checked]))
  · obtain ⟨parent, children, he⟩ := g.refused_eq_linked q
    rw [he]
    exact hg

/-- What a request adds that is about new nodes. -/
theorem grow_carried (hg : g.TargetsExist) (hq : q.Concerns (a.Owns g.size)) :
    (g.grow a).carried q = g.grow (a.carried g.size q) := by
  cases q with
  | add behavior params react =>
    rw [carried, size_grow, grown, grow_append]
    rfl
  | stream source params =>
    rw [carried, size_grow, grown, grow_append]
    rfl
  | connect parent children => simp only [carried, linked, Growth.carried, grow, List.append_assoc]
  | listen l => simp only [carried, Growth.carried, grow, List.append_assoc]
  | fetch node resource format => simp only [carried, Growth.carried, grow, List.append_assoc]
  | pulse node changes => exact adjusted_grow hq.1 _
  | ingest node data format =>
    rw [carried, adjusted_grow hq.1]
    simp only [Growth.carried, grow, Growth.adjusted, List.append_assoc]
  | addTarget source target =>
    simp only [carried, Growth.carried]
    split
    · rename_i hs
      exact targeted_grow hg hs hq.1
    · rename_i hs
      exact adjusted_grow (Nat.not_lt.mp hs) _

/-- A request that links no more than one child changes nothing where it is refused. -/
theorem refused_of_concerns {own : Handle → Prop} {e : GraphError} (hq : q.Concerns own)
    (he : g.refusal? q = some e) : g.refused q = g := by
  cases q with
  | connect parent children =>
    obtain ⟨child, rfl, -⟩ := hq
    exact refused_connect_single he
  | _ => rfl

end Graph

/-! ## Where new edges and targets lead -/

namespace Growth

variable {a : Growth} {size : Nat} {q : Request}

/-- All new edges end at new nodes, and all targets that the nodes before get are new nodes. -/
structure Inward (a : Growth) (size : Nat) : Prop where
  edges : ∀ e ∈ a.edges, a.Owns size e.target
  targets : ∀ h, ∀ target ∈ a.targets h, a.Owns size target
  /-- There are targets for the nodes before only; the new nodes have theirs already. -/
  before : ∀ h, size ≤ h → a.targets h = []

theorem inward_empty (size : Nat) : Growth.empty.Inward size where
  edges := fun _ h => nomatch h
  targets := fun _ _ h => nomatch h
  before := fun _ _ => rfl

theorem Owns.mono {b : Growth} {h : Handle} (ho : a.Owns size h)
    (hle : a.nodes.length ≤ b.nodes.length) : b.Owns size h :=
  ⟨ho.1, Nat.lt_of_lt_of_le ho.2 (Nat.add_le_add_left hle size)⟩

/-- No request removes what has been added. -/
theorem length_le_carried (a : Growth) (size : Nat) (q : Request) :
    a.nodes.length ≤ (a.carried size q).nodes.length := by
  cases q with
  | addTarget source target =>
    simp only [carried]
    split <;> simp [targeted, adjusted]
  | _ => simp [carried, adjusted]

/-- The node that is made is a new one. -/
theorem owns_made (h : q.isMaking = true) :
    (a.carried size q).Owns size (size + a.nodes.length) := by
  cases q with
  | add behavior params react => simp [Owns, carried]
  | stream source params => simp [Owns, carried]
  | _ => exact nomatch h

/-- The edges that a request adds. -/
theorem mem_edges_carried (hq : q.Concerns (a.Owns size)) {e : Edge}
    (he : e ∈ (a.carried size q).edges) :
    e ∈ a.edges ∨ (a.carried size q).Owns size e.target := by
  cases q with
  | add behavior params react =>
    obtain he | he := List.mem_append.mp he
    · exact .inl he
    · cases react with
      | false => exact nomatch he
      | true =>
        obtain ⟨p, -, rfl⟩ := List.mem_map.mp he
        exact .inr (owns_made rfl)
  | stream source params =>
    obtain he | he := List.mem_append.mp he
    · exact .inl he
    · obtain ⟨p, -, rfl⟩ := List.mem_map.mp he
      exact .inr (owns_made rfl)
  | connect parent children =>
    obtain ⟨child, rfl, hown⟩ := hq
    obtain he | he := List.mem_append.mp he
    · exact .inl he
    · obtain rfl := List.mem_singleton.mp he
      exact .inr hown
  | addTarget source target =>
    refine .inl ?_
    simp only [carried] at he
    split at he
    · exact he
    · exact he
  | ingest node data format => exact .inl he
  | fetch node resource format => exact .inl he
  | pulse node changes => exact .inl he
  | listen l => exact .inl he

/-- The targets that a request adds. -/
theorem mem_targets_carried (hq : q.Concerns (a.Owns size)) {h target : Handle}
    (ht : target ∈ (a.carried size q).targets h) :
    target ∈ a.targets h ∨ a.Owns size target := by
  cases q with
  | addTarget source child =>
    simp only [carried] at ht
    split at ht
    · simp only [targeted] at ht
      split at ht
      · obtain ht | ht := List.mem_append.mp ht
        · exact .inl ht
        · obtain rfl := List.mem_singleton.mp ht
          exact .inr hq
      · exact .inl ht
    · exact .inl ht
  | _ => exact .inl ht

/-- No request adds targets for a new node. -/
theorem targets_carried_of_le (a : Growth) (q : Request) {h : Handle} (hh : size ≤ h) :
    (a.carried size q).targets h = a.targets h := by
  cases q with
  | addTarget source target =>
    simp only [carried]
    split
    · rename_i hs
      have hne : h ≠ source := Nat.ne_of_gt (Nat.lt_of_lt_of_le hs hh)
      simp only [targeted, hne, false_and, if_false]
    · rfl
  | _ => rfl

theorem Inward.carried (ha : a.Inward size) (hq : q.Concerns (a.Owns size)) :
    (a.carried size q).Inward size where
  edges := by
    intro e he
    obtain he | hown := mem_edges_carried hq he
    · exact (ha.edges e he).mono (length_le_carried a size q)
    · exact hown
  targets := by
    intro h target ht
    obtain ht | hown := mem_targets_carried hq ht
    · exact (ha.targets h target ht).mono (length_le_carried a size q)
    · exact hown.mono (length_le_carried a size q)
  before := fun h hh => (targets_carried_of_le a q hh).trans (ha.before h hh)

/-! ## Renaming -/

variable {r : Renaming} {size' : Nat}

theorem map_adjusted {h h' : Handle} {f f' : Node → Node} (hh : h' - size' = h - size)
    (hf : ∀ n : Node, (f n).rename r = f' (n.rename r)) :
    (a.adjusted size h f).rename r = (a.rename r).adjusted size' h' f' := by
  simp only [adjusted, rename, List.map_modify hf, hh]

theorem rename_targeted (hinj : Function.Injective r.handle) (source target : Handle)
    (hs : r.handle source = source) :
    (a.targeted source target).rename r =
      (a.rename r).targeted (r.handle source) (r.handle target) := by
  have htargets : ((a.targeted source target).rename r).targets =
      ((a.rename r).targeted (r.handle source) (r.handle target)).targets := by
    funext h
    simp only [targeted, rename, hs, List.mem_map_of_injective hinj]
    split
    · rw [List.map_append, List.map_singleton]
    · rfl
  exact congrArg (fun targets => Growth.mk _ targets _ _ _) htargets

theorem rename_paramEdges {node : Handle} (params : Parameters) :
    (Graph.paramEdges node params).map (Edge.rename r) =
      Graph.paramEdges (r.handle node) (params.rename r) := by
  simp only [Graph.paramEdges, Parameters.handles_rename, List.map_map]
  rfl

/-- The renamed request adds the same to a graph of another size, renamed. -/
theorem rename_carried (hle : size ≤ size') (hr : r.handle = shift size size')
    (hq : q.Concerns (a.Owns size)) :
    (a.carried size q).rename r = (a.rename r).carried size' (q.rename r) := by
  have hnew : r.handle (size + a.nodes.length) = size' + a.nodes.length := by rw [hr, shift_add]
  -- New numbers are counted from the first new one, which is all that a change of a node uses.
  cases q with
  | add behavior params react =>
    have hedges : (if react then Graph.paramEdges (size + a.nodes.length) params else []).map
        (Edge.rename r) =
          if react then Graph.paramEdges (size' + a.nodes.length) (params.rename r) else [] := by
      cases react
      · rfl
      · rw [if_pos rfl, if_pos rfl, rename_paramEdges, hnew]
    simp only [carried, Request.rename, rename, List.length_map, List.map_append, hedges]
    rfl
  | stream source params =>
    obtain ⟨name, kind, parent, filter⟩ := source
    simp only [carried, Request.rename, rename, List.length_map, List.map_append]
    cases parent with
    | none => rfl
    | some p =>
      simp only [Option.toList_some, List.map_cons, List.map_nil, Edge.rename, hnew]
      rfl
  | connect parent children =>
    simp only [carried, Request.rename, rename, List.map_append, Graph.parentEdges, List.map_map]
    rfl
  | listen l => simp only [carried, Request.rename, rename, List.map_append, List.map_singleton]
  | fetch node resource format =>
    simp only [carried, Request.rename, rename, List.map_append, List.map_singleton]
    rfl
  | pulse node changes =>
    have hsub : r.handle node - size' = node - size := by rw [hr, shift_sub hq.1]
    exact map_adjusted hsub fun _ => rfl
  | ingest node data format =>
    have hsub : r.handle node - size' = node - size := by rw [hr, shift_sub hq.1]
    have hnodes : (a.adjusted size node fun n =>
        { n with records := n.records ++ Graph.Edit.ingested data }).rename r =
          (a.rename r).adjusted size' (r.handle node) fun n =>
            { n with records := n.records ++ Graph.Edit.ingested data } :=
      map_adjusted hsub fun _ => rfl
    have hboth := congrArg Growth.nodes hnodes
    simp only [carried, Request.rename]
    simp only [rename, adjusted, List.map_append, List.map_singleton] at hboth ⊢
    rw [hboth]
    rfl
  | addTarget source target =>
    have hinj : Function.Injective r.handle := hr ▸ shift_injective hle
    simp only [carried, Request.rename]
    by_cases hs : source < size
    · -- A node from before keeps its number.
      have hsame : r.handle source = source := by rw [hr, shift_of_lt hs]
      have hs' : r.handle source < size' := hsame.symm ▸ Nat.lt_of_lt_of_le hs hle
      rw [if_pos hs, if_pos hs', rename_targeted hinj source target hsame]
    · have hs' : ¬ r.handle source < size' := by rw [hr, shift_lt hle]; exact hs
      have hsub : r.handle source - size' = source - size := by
        rw [hr, shift_sub (Nat.not_lt.mp hs)]
      rw [if_neg hs, if_neg hs']
      refine map_adjusted hsub fun n => ?_
      have hmem : r.handle target ∈ (n.rename r).targets ↔ target ∈ n.targets :=
        List.mem_map_of_injective hinj
      simp only [hmem]
      split
      · rfl
      · simp only [Node.rename, List.map_append, List.map_singleton]

end Growth

/-! ## Refusals and answers -/

namespace Graph

variable {g g' : Graph} {r : Renaming}

/-- The renamed request is refused by the other graph for the same reason, renamed. -/
theorem refusal?_rename (hr : ∀ h, r.handle h < g'.size ↔ h < g.size) (q : Request) :
    g'.refusal? (q.rename r) = (g.refusal? q).map (GraphError.rename r) := by
  have hmissing : g'.missing? (q.rename r).checked = (g.missing? q.checked).map r.handle := by
    rw [Request.checked_rename]
    induction q.checked with
    | nil => rfl
    | cons h rest ih =>
      rw [List.map_cons, missing?_cons, missing?_cons]
      by_cases hlt : h < g.size
      · rw [if_pos hlt, if_pos ((hr h).mpr hlt), ih]
      · rw [if_neg hlt, if_neg fun h' => hlt ((hr h).mp h')]
        rfl
  unfold refusal?
  rw [hmissing]
  cases g.missing? q.checked with
  | some h => rfl
  | none =>
    cases q with
    | fetch node resource format =>
      simp only [Option.map_none, Request.rename]
      split <;> rfl
    | _ => rfl

/-- The answer to the renamed request is the renamed answer. -/
theorem answer_rename (hr : r.handle g.size = g'.size) (q : Request) :
    g'.answer (q.rename r) = r.handle (g.answer q) := by
  cases q with
  | add behavior params react => exact hr.symm
  | stream source params => exact hr.symm
  | _ => rfl

end Graph

end Dataflow
