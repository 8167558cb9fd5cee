import Dataflow.Proofs.GraphGrowth
import Mathlib.Data.List.TakeWhile

/-!
# Which handles a graph holds

A graph holds handles in its edges, in the targets, parameters and sources of its nodes, in its
loads and in its listeners (`Graph.held`). Every request checks the handles that it brings, with one
exception: the parameters of a listener are taken as they are. `Graph.Owned` says that all others
name nodes, and `Owned.after` that no request changes this. The main result,
`held_handles_exist`, adds when the parameters of listeners name nodes too: as long as no listener
is registered whose parameters do not.
-/

namespace Dataflow

/-- The handles in what a node is: the stream that a stream is derived from. -/
def NodeKind.handles : NodeKind → List Handle
  | .operator _ => []
  | .stream source => source.parent.toList

/-- The handles that a node holds. -/
def Node.handles (n : Node) : List Handle := n.kind.handles ++ n.params.nodes ++ n.targets

/-- The handles that a listener holds. -/
def Listener.handles (l : Listener) : List Handle := l.source :: l.target :: l.params.nodes

namespace Graph

/-- All handles that a graph holds. -/
def held (g : Graph) : List Handle :=
  g.edges.flatMap (fun e => [e.source, e.target]) ++ g.nodes.flatMap Node.handles ++
    g.loads.map Load.node ++ g.listeners.flatMap Listener.handles

/-- The graph after several requests in turn, each of them carried out or refused. -/
def performAll (g : Graph) (requests : List Request) : Graph :=
  requests.foldl (fun g r =>
    match perform r g with
    | .ok _ g' => g'
    | .error _ g' => g') g

/-- All handles that are checked name nodes: those outside of the parameters of listeners. -/
structure Owned (g : Graph) : Prop where
  edges : ∀ e ∈ g.edges, e.source < g.size ∧ e.target < g.size
  nodes : ∀ n ∈ g.nodes, ∀ h ∈ n.handles, h < g.size
  loads : ∀ l ∈ g.loads, l.node < g.size
  listeners : ∀ l ∈ g.listeners, l.source < g.size ∧ l.target < g.size

variable {g : Graph}

theorem mem_held {h : Handle} :
    h ∈ g.held ↔ (∃ e ∈ g.edges, h = e.source ∨ h = e.target) ∨ (∃ n ∈ g.nodes, h ∈ n.handles) ∨
      (∃ l ∈ g.loads, h = l.node) ∨
      ∃ l ∈ g.listeners, h = l.source ∨ h = l.target ∨ h ∈ l.params.nodes := by
  simp only [held, Listener.handles, List.mem_append, List.mem_flatMap, List.mem_map,
    List.mem_cons, List.not_mem_nil, or_false, or_assoc, eq_comm]

theorem isSome_node? {h : Handle} : (g.node? h).isSome ↔ h < g.size := by
  simp [node?, size]

/-- The graph holds no handle that names no node if and only if it is owned, and the parameters of
its listeners name nodes too. -/
theorem held_lt_size :
    (∀ h ∈ g.held, h < g.size) ↔ g.Owned ∧ ∀ l ∈ g.listeners, ∀ h ∈ l.params.nodes, h < g.size := by
  simp only [mem_held]
  constructor
  · intro hall
    refine ⟨⟨?_, ?_, ?_, ?_⟩, ?_⟩
    · exact fun e he => ⟨hall _ (.inl ⟨e, he, .inl rfl⟩), hall _ (.inl ⟨e, he, .inr rfl⟩)⟩
    · exact fun n hn h hh => hall h (.inr (.inl ⟨n, hn, hh⟩))
    · exact fun l hl => hall _ (.inr (.inr (.inl ⟨l, hl, rfl⟩)))
    · exact fun l hl => ⟨hall _ (.inr (.inr (.inr ⟨l, hl, .inl rfl⟩))),
        hall _ (.inr (.inr (.inr ⟨l, hl, .inr (.inl rfl)⟩)))⟩
    · exact fun l hl h hh => hall h (.inr (.inr (.inr ⟨l, hl, .inr (.inr hh)⟩)))
  · rintro ⟨hg, hparams⟩ h hh
    obtain ⟨e, he, rfl | rfl⟩ | ⟨n, hn, hh⟩ | ⟨l, hl, rfl⟩ | ⟨l, hl, rfl | rfl | hh⟩ := hh
    · exact (hg.edges e he).1
    · exact (hg.edges e he).2
    · exact hg.nodes n hn h hh
    · exact hg.loads l hl
    · exact (hg.listeners l hl).1
    · exact (hg.listeners l hl).2
    · exact hparams l hl h hh

/-! ## Requests -/

theorem owned_empty : Graph.empty.Owned where
  edges := fun _ h => nomatch h
  nodes := fun _ h => nomatch h
  loads := fun _ h => nomatch h
  listeners := fun _ h => nomatch h

/-- A node may be made of what exists, with edges from nodes that exist to the new one. -/
theorem Owned.grown (hg : g.Owned) {node : Node} {edges : List Edge}
    (hnode : ∀ h ∈ node.handles, h < g.size)
    (hedges : ∀ e ∈ edges, e.source < g.size ∧ e.target = g.size) : (g.grown node edges).Owned := by
  have hlt : ∀ {h : Handle}, h < g.size → h < (g.grown node edges).size := fun hh =>
    Nat.lt_of_lt_of_le hh (by simp)
  refine ⟨fun e he => ?_, fun n hn h hh => hlt ?_, fun l hl => hlt (hg.loads l hl),
    fun l hl => ⟨hlt (hg.listeners l hl).1, hlt (hg.listeners l hl).2⟩⟩
  · obtain he | he := List.mem_append.mp he
    · exact ⟨hlt (hg.edges e he).1, hlt (hg.edges e he).2⟩
    · obtain ⟨hsource, htarget⟩ := hedges e he
      exact ⟨hlt hsource, by simp [htarget]⟩
  · obtain hn | hn := List.mem_append.mp hn
    · exact hg.nodes n hn h hh
    · obtain rfl := List.mem_singleton.mp hn
      exact hnode h hh

/-- Nodes that exist may be linked. -/
theorem Owned.linked (hg : g.Owned) {edges : List Edge}
    (hedges : ∀ e ∈ edges, e.source < g.size ∧ e.target < g.size) : (g.linked edges).Owned :=
  ⟨fun e he => (List.mem_append.mp he).elim (hg.edges e) (hedges e), hg.nodes, hg.loads,
    hg.listeners⟩

/-- A node may be changed if it gets no other handles than those of nodes. -/
theorem Owned.adjusted (hg : g.Owned) {f : Node → Node} (handle : Handle)
    (hf : ∀ n, ∀ h ∈ (f n).handles, h ∈ n.handles ∨ h < g.size) : (g.adjusted handle f).Owned := by
  refine ⟨fun e he => ?_, fun n hn h hh => ?_, fun l hl => ?_, fun l hl => ?_⟩
  all_goals rw [size_adjusted]
  · exact hg.edges e he
  · obtain hn | ⟨old, hold, rfl⟩ := List.mem_of_mem_modify hn
    · exact hg.nodes n hn h hh
    · exact (hf old h hh).elim (hg.nodes old hold h) fun h => h
  · exact hg.loads l hl
  · exact hg.listeners l hl

/-- Data may be loaded into a node that exists. -/
theorem Owned.loaded (hg : g.Owned) {load : Load} (h : load.node < g.size) :
    { g with loads := g.loads ++ [load] }.Owned := by
  refine ⟨hg.edges, hg.nodes, fun l hl => ?_, hg.listeners⟩
  obtain hl | hl := List.mem_append.mp hl
  · exact hg.loads l hl
  · obtain rfl := List.mem_singleton.mp hl
    exact h

theorem parentEdges_lt {n : Nat} {parent : Handle} {children : List Handle} (hp : parent < n)
    (hc : ∀ c ∈ children, c < n) :
    ∀ e ∈ parentEdges parent children, e.source < n ∧ e.target < n := by
  intro e he
  obtain ⟨c, hmem, rfl⟩ := List.mem_map.mp he
  exact ⟨hp, hc c hmem⟩

/-- A node that is made holds the handles in what it is and in its parameters. -/
theorem handles_fresh (kind : NodeKind) (params : Parameters) (react : Bool) :
    (Node.fresh kind params react).handles = kind.handles ++ params.nodes := by
  simp [Node.handles, Node.fresh]

/-- Whatever is asked for, the handles that are checked name nodes afterwards. -/
theorem Owned.after (hg : g.Owned) (r : Request) : (g.after r).Owned := by
  unfold Graph.after
  split
  · rename_i hok
    -- What the request brings has been checked, since it is carried out.
    have hc := checked_lt_size hok
    cases r with
    | add behavior params react =>
      refine hg.grown (fun h hh => hc h ?_) fun e he => ?_
      · rw [handles_fresh] at hh
        exact hh
      · cases react with
        | false => exact nomatch he
        | true =>
          obtain ⟨p, hp, rfl⟩ := List.mem_map.mp he
          exact ⟨hc p.2 (List.mem_map_of_mem hp), rfl⟩
    | stream source params =>
      refine hg.grown (fun h hh => hc h ?_) fun e he => ?_
      · rw [handles_fresh] at hh
        exact hh
      · obtain ⟨p, hp, rfl⟩ := List.mem_map.mp he
        exact ⟨hc p (List.mem_append_left _ hp), rfl⟩
    | connect parent children =>
      exact hg.linked (parentEdges_lt (hc parent List.mem_cons_self)
        fun c hmem => hc c (List.mem_cons_of_mem _ hmem))
    | addTarget source target =>
      refine hg.adjusted source fun n h hh => ?_
      split at hh
      · exact .inl hh
      · -- Only the targets are longer, by a node that has been checked.
        simp only [Node.handles, List.mem_append, List.mem_singleton] at hh ⊢
        obtain hh | hh | rfl := hh
        · exact .inl (.inl hh)
        · exact .inl (.inr hh)
        · exact .inr (hc h List.mem_cons_self)
    | listen l =>
      refine ⟨hg.edges, hg.nodes, hg.loads, fun l' hl => ?_⟩
      obtain hl | hl := List.mem_append.mp hl
      · exact hg.listeners l' hl
      · obtain rfl := List.mem_singleton.mp hl
        exact ⟨hc l'.source List.mem_cons_self, hc l'.target (by simp [Request.checked])⟩
    | ingest node data format =>
      have hrecords : (g.adjusted node fun n =>
          { n with records := n.records ++ Edit.ingested data }).Owned :=
        hg.adjusted node fun _ _ hh => .inl hh
      exact hrecords.loaded ((size_adjusted g node _).symm ▸ hc node List.mem_cons_self)
    | fetch node resource format => exact hg.loaded (hc node List.mem_cons_self)
    | pulse node changes => exact hg.adjusted node fun _ _ hh => .inl hh
  · cases r with
    | connect parent children =>
      -- The links that stay are those to the children before the first missing one.
      simp only [refused]
      split
      · rename_i hp
        refine hg.linked (parentEdges_lt hp fun c hmem => ?_)
        simpa using List.mem_takeWhile_imp hmem
      · exact hg
    | _ => exact hg

/-- A run of requests is a run of what each of them makes of the graph. -/
theorem performAll_eq (g : Graph) (requests : List Request) :
    g.performAll requests = requests.foldl after g := by
  have hstep : ∀ (g : Graph) (r : Request),
      (match perform r g with
        | .ok _ g' => g'
        | .error _ g' => g') = g.after r := by
    intro g r
    rw [perform_eq, after]
    cases g.refusal? r <;> rfl
  simp only [performAll, hstep]

theorem Owned.performAll (hg : g.Owned) (requests : List Request) :
    (g.performAll requests).Owned := by
  rw [performAll_eq]
  induction requests generalizing g with
  | nil => exact hg
  | cons r rest ih => exact ih (hg.after r)

/-! ## Listeners -/

/-- Where all parameters of listeners name nodes, they do so after a request, unless it registers
a listener with others. -/
theorem listeners_lt_after {r : Request}
    (hg : ∀ l ∈ g.listeners, ∀ h ∈ l.params.nodes, h < g.size) :
    (∀ l ∈ (g.after r).listeners, ∀ h ∈ l.params.nodes, h < (g.after r).size) ↔
      ∀ l, r = .listen l → l.source < g.size → l.target < g.size →
        ∀ h ∈ l.params.nodes, h < g.size := by
  constructor
  · rintro hafter l rfl hs ht h hh
    have hok : g.refusal? (.listen l) = none := by
      refine refusal?_eq_none (fun node hn => ?_) (by simp)
      simp only [Request.checked, List.mem_cons, List.not_mem_nil, or_false] at hn
      obtain rfl | rfl := hn
      · exact hs
      · exact ht
    -- The listener is registered, and registering makes no node.
    have hgraph : g.after (.listen l) = { g with listeners := g.listeners ++ [l] } := by
      rw [after, hok]
      rfl
    rw [hgraph] at hafter
    exact hafter l (by simp) h hh
  · intro hr l hl h hh
    refine Nat.lt_of_lt_of_le ?_ (g.size_le_after r)
    obtain hl | rfl := listeners_after hl
    · exact hg l hl h hh
    · by_cases hnew : l ∈ g.listeners
      · exact hg l hnew h hh
      · -- It is new, so the request has been carried out.
        have hok : g.refusal? (.listen l) = none := by
          cases he : g.refusal? (.listen l) with
          | none => rfl
          | some e =>
            rw [after, he] at hl
            exact absurd hl hnew
        have hc := checked_lt_size hok
        have htarget := hc l.target (by simp [Request.checked])
        exact hr l rfl (hc l.source List.mem_cons_self) htarget h hh

/-! ## All runs -/

/-- After every run of requests, refused ones included, a handle that the graph holds names a node,
or it stands in the parameters of a listener. Where every handle names a node, the next request
keeps it so, with one exception: a listener is registered from one node to another, and its
parameters refer to nodes that do not exist. -/
theorem held_handles_exist (requests : List Request) :
    let g := Graph.empty.performAll requests
    (∀ h ∈ g.held, (g.node? h).isSome ∨ ∃ l ∈ g.listeners, h ∈ l.params.nodes) ∧
      ((∀ h ∈ g.held, (g.node? h).isSome) → ∀ r : Request,
        let g' := g.performAll [r]
        (∀ h ∈ g'.held, (g'.node? h).isSome) ↔
          ∀ l, r = .listen l → (g.node? l.source).isSome → (g.node? l.target).isSome →
            ∀ h ∈ l.params.nodes, (g.node? h).isSome) := by
  intro g
  have hg : g.Owned := owned_empty.performAll requests
  simp only [isSome_node?]
  refine ⟨fun h hh => ?_, fun hall r => ?_⟩
  · obtain ⟨e, he, rfl | rfl⟩ | ⟨n, hn, hh⟩ | ⟨l, hl, rfl⟩ | ⟨l, hl, rfl | rfl | hh⟩ :=
      mem_held.mp hh
    · exact .inl (hg.edges e he).1
    · exact .inl (hg.edges e he).2
    · exact .inl (hg.nodes n hn h hh)
    · exact .inl (hg.loads l hl)
    · exact .inl (hg.listeners l hl).1
    · exact .inl (hg.listeners l hl).2
    · exact .inr ⟨l, hl, hh⟩
  · have hafter : g.performAll [r] = g.after r := performAll_eq g [r]
    rw [hafter, held_lt_size, ← listeners_lt_after (held_lt_size.mp hall).2]
    exact ⟨fun h => h.2, fun h => ⟨hg.after r, h⟩⟩

/-- A listener from a node to itself, with a parameter that refers to the node of a given place. -/
def selfListener (h : Handle) : Listener :=
  ⟨0, 0, none, Table.ofList [("x", .array [.operator h])], none⟩

/-- A node, and a listener whose parameter refers to it: all handles name nodes, until a listener is
registered with a parameter that refers to none. -/
theorem held_handles_exist_listener :
    let g := Graph.empty.performAll [.add (.plain none none) .empty true, .listen (selfListener 0)]
    g.held = [0, 0, 0] ∧ (∀ h ∈ g.held, (g.node? h).isSome) ∧
      ¬ ∀ h ∈ (g.performAll [.listen (selfListener 7)]).held,
        ((g.performAll [.listen (selfListener 7)]).node? h).isSome := by
  intro g
  have hheld : g.held = [0, 0, 0] := by decide
  have hall : ∀ h ∈ g.held, (g.node? h).isSome := by
    rw [hheld]
    decide
  have hstep := (held_handles_exist
    [.add (.plain none none) .empty true, .listen (selfListener 0)]).2 hall
      (.listen (selfListener 7))
  refine ⟨hheld, hall, fun hnext => ?_⟩
  exact absurd (hstep.mp hnext _ rfl (by decide) (by decide) 7 (by decide)) (by decide)

/-- Not every run of requests leaves only handles of nodes behind. -/
theorem held_handles_not_always_exist :
    ¬ ∀ requests : List Request, ∀ h ∈ (Graph.empty.performAll requests).held,
      ((Graph.empty.performAll requests).node? h).isSome := by
  intro h
  have hdangling := h [.add (.plain none none) .empty true, .listen (selfListener 7)] 7 (by decide)
  exact absurd hdangling (by decide)

end Graph

end Dataflow
