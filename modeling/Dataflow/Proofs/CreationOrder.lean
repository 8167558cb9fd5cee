import Dataflow.Proofs.HeldHandles
import Dataflow.Proofs.NoDanglingHandles
import Dataflow.Proofs.RequestOrder

/-!
# The graph follows the order of creation

Whatever a new node depends on exists before it, so its edges lead forward, from smaller handles to
larger ones. A link to a parent is made after the node, when the entry has been recorded, so an
operator that declares itself as its parent finds its own node. This is the only way in which an
edge fails to lead forward, and such an edge is a parent edge from a node to itself.

`Graph.Follows` says so of the edges that are added on the way from one graph to another.
`follows_foldl` is about any series of requests; for an operator `requests_in_order` says which link
is asked for, and `Session.Closed` that its parent is not a later node. The main result is
`edges_follow_creation`: the graph of every run that hands over no nodes is acyclic, but for the
nodes of operators that are their own parents.
-/

namespace Dataflow

/-- The edge leads forward, or it is the link of one of these nodes to itself as its parent. -/
def Edge.Follows (loops : Handle → Prop) (e : Edge) : Prop :=
  e.source < e.target ∨ e.source = e.target ∧ e.dependency = .parent ∧ loops e.target

/-- All links that are asked for do so. -/
def Request.Follows (loops : Handle → Prop) : Request → Prop
  | .connect parent children => ∀ c ∈ children, Edge.Follows loops ⟨parent, c, .parent⟩
  | _ => True

namespace Graph

/-- All edges that have been added follow the order of creation, but for these loops. -/
def Follows (loops : Handle → Prop) (g g' : Graph) : Prop :=
  ∀ e ∈ g'.edges, e ∈ g.edges ∨ e.Follows loops

variable {loops loops' : Handle → Prop} {g g' g'' : Graph}

theorem Follows.refl (g : Graph) : g.Follows loops g := fun _ he => .inl he

theorem Follows.trans (h : g.Follows loops g') (h' : g'.Follows loops g'') :
    g.Follows loops g'' := fun e he => (h' e he).elim (h e) .inr

theorem Follows.mono (h : g.Follows loops g') (hl : ∀ node, loops node → loops' node) :
    g.Follows loops' g' := fun e he =>
  (h e he).imp id (Or.imp id fun ⟨hsame, hparent, hloop⟩ => ⟨hsame, hparent, hl _ hloop⟩)

/-! ## Requests -/

/-- An edge that a request adds leads to the node that it makes, or it is one of the links. -/
theorem mem_edges_of_after {r : Request} {e : Edge} (h : e ∈ (g.after r).edges) :
    e ∈ g.edges ∨ (e.source < g.size ∧ e.target = g.size) ∨
      ∃ parent children, r = .connect parent children ∧ e ∈ parentEdges parent children := by
  unfold after at h
  cases hr : g.refusal? r with
  | none =>
    have hc := checked_lt_size hr
    rw [hr] at h
    cases r with
    | add behavior params react =>
      obtain he | he := List.mem_append.mp h
      · exact .inl he
      · cases react with
        | false => exact nomatch he
        | true =>
          obtain ⟨p, hp, rfl⟩ := List.mem_map.mp he
          exact .inr (.inl ⟨hc p.2 (List.mem_map_of_mem hp), rfl⟩)
    | stream source params =>
      obtain he | he := List.mem_append.mp h
      · exact .inl he
      · obtain ⟨p, hp, rfl⟩ := List.mem_map.mp he
        exact .inr (.inl ⟨hc p (List.mem_append_left _ hp), rfl⟩)
    | connect parent children =>
      exact (List.mem_append.mp h).imp id fun he => .inr ⟨parent, children, rfl, he⟩
    | _ => exact .inl h
  | some _ =>
    rw [hr] at h
    cases r with
    | connect parent children =>
      simp only [refused] at h
      split at h
      · obtain he | he := List.mem_append.mp h
        · exact .inl he
        · -- The links that stay are some of those that are asked for.
          have hsome : e ∈ parentEdges parent children :=
            (List.takeWhile_sublist _).map _ |>.mem he
          exact .inr (.inr ⟨parent, children, rfl, hsome⟩)
      · exact .inl h
    | _ => exact .inl h

theorem follows_after {r : Request} (h : r.Follows loops) : g.Follows loops (g.after r) := by
  intro e he
  obtain hold | ⟨hsource, htarget⟩ | ⟨parent, children, rfl, hlink⟩ := mem_edges_of_after he
  · exact .inl hold
  · exact .inr (.inl (htarget ▸ hsource))
  · obtain ⟨c, hc, rfl⟩ := List.mem_map.mp hlink
    exact .inr (h c hc)

theorem follows_foldl {calls : List Request} (h : ∀ r ∈ calls, r.Follows loops) (g : Graph) :
    g.Follows loops (calls.foldl after g) := by
  induction calls generalizing g with
  | nil => exact .refl g
  | cons r rest ih =>
    have hrest := ih (fun q hq => h q (List.mem_cons_of_mem _ hq)) (g.after r)
    exact (follows_after (h r List.mem_cons_self)).trans hrest

end Graph

/-- A request that makes no link adds only edges that lead forward. -/
theorem Request.follows_of_not_link {loops : Handle → Prop} {r : Request} (h : r.isLink = false) :
    r.Follows loops := by
  cases r with
  | connect parent children => exact nomatch h
  | _ => trivial

/-- Of the requests for an operator only the link to its parent may not lead forward. -/
theorem OperatorSpec.Series.follows {loops : Handle → Prop} {spec : OperatorSpec} {handle : Handle}
    {parent? : Option Handle} {calls : List Request} (h : spec.Series handle parent? calls)
    (hp : ∀ p, parent? = some p → Edge.Follows loops ⟨p, handle, .parent⟩) :
    ∀ r ∈ calls, r.Follows loops := by
  obtain ⟨behavior, params, loads, hloads, rfl⟩ := h
  intro r hr
  obtain rfl | hr := List.mem_cons.mp hr
  · trivial
  · obtain hr | hr := List.mem_append.mp hr
    · obtain ⟨v, hload⟩ := hloads.of_mem hr
      cases hload <;> trivial
    · cases parent? with
      | none => exact nomatch hr
      | some p =>
        simp only [linkRequests, List.mem_cons, List.not_mem_nil, or_false] at hr
        obtain rfl | rfl := hr
        · intro c hc
          obtain rfl := List.mem_singleton.mp hc
          exact hp p rfl
        · trivial

/-- Requests that follow the order leave a graph that does. -/
theorem Session.Told.follows {loops : Handle → Prop} {s s' : Session} {calls : List Request}
    (h : s.Told calls s') (hcalls : ∀ r ∈ calls, r.Follows loops) :
    s.graph.Follows loops s'.graph := by
  rw [h.graph]
  exact Graph.follows_foldl hcalls s.graph

/-! ## Steps -/

/-- The nodes of operators that are their own parents, if these operators have their nodes in order
from `first` on. -/
def SelfParent (specs : List OperatorSpec) (first : Handle) (h : Handle) : Prop :=
  ∃ k o, h = first + k ∧ specs[k]? = some o ∧ o.parent = some o.id

namespace Compile

variable {loops : Handle → Prop} {scope : ScopeId} {s : Session} {α β : Type}

/-- However the step ends, the edges that it has added follow the order of creation. -/
def Follows (loops : Handle → Prop) (m : Compile α) (s : Session) : Prop :=
  Ends m s (fun _ s' => s.graph.Follows loops s'.graph)
    fun _ s' => s.graph.Follows loops s'.graph

theorem Quiet.follows {m : Compile α} (h : Quiet m) (s : Session) : Follows loops m s := by
  have hsame : ∀ s', s.Untouched s' → s.graph.Follows loops s'.graph := by
    intro s' hs'
    rw [hs'.graph]
    exact .refl _
  exact (h s).mono (fun _ => hsame) fun _ => hsame

theorem Makes.follows {m : Compile α} {whole other : List Request → Prop}
    (h : Makes m s whole other) (hw : ∀ calls, whole calls → ∀ r ∈ calls, r.Follows loops)
    (ho : ∀ calls, other calls → ∀ r ∈ calls, r.Follows loops) : Follows loops m s := by
  refine Ends.mono h ?_ ?_
  · rintro a s' ⟨calls, htold, hcalls⟩
    exact htold.follows (hw calls hcalls)
  · rintro e s' ⟨calls, full, htold, hstart, hfull⟩
    exact htold.follows fun r hr => ho full hfull r (hstart.subset hr)

theorem follows_bind {m : Compile α} {f : α → Compile β} (hm : Follows loops m s)
    (hf : ∀ a s', Follows loops (f a) s') : Follows loops (m >>= f) s := by
  unfold Follows
  rw [ends_bind]
  refine Ends.mono hm (fun a s₁ h₁ => ?_) fun _ _ h => h
  exact Ends.mono (hf a s₁) (fun _ _ h₂ => h₁.trans h₂) fun _ _ h₂ => h₁.trans h₂

/-- In a closed session the parent of a new node is an earlier one, or the node itself if the
operator declares so. -/
theorem parent_follows (hs : s.Closed) {spec : OperatorSpec} {p : Handle}
    (h : spec.parent.bind (s.withNext scope spec.id) = some p) :
    Edge.Follows (SelfParent [spec] s.graph.size) ⟨p, s.graph.size, .parent⟩ := by
  obtain ⟨id, hparent, hid⟩ := Option.bind_eq_some_iff.mp h
  unfold Session.withNext at hid
  -- The entry of the operator itself is recorded when the parent is looked up.
  by_cases he : id = spec.id
  · subst he
    rw [Function.update_self] at hid
    obtain rfl := Option.some.inj hid
    exact .inr ⟨rfl, rfl, 0, spec, rfl, rfl, hparent⟩
  · rw [Function.update_of_ne he] at hid
    exact .inl (hs.node?_lt hid)

/-- An operator makes its node, and no edge against the order but the one to itself. -/
theorem follows_operator (hs : s.Closed) (scope : ScopeId) (spec : OperatorSpec) :
    Ends (operator scope spec) s
      (fun _ s' => s'.graph.size = s.graph.size + 1 ∧
        s.graph.Follows (SelfParent [spec] s.graph.size) s'.graph)
      fun _ s' => s.graph.Follows (SelfParent [spec] s.graph.size) s'.graph := by
  refine (ends_operator spec).mono ?_ ?_
  · rintro h s' ⟨hsize, -, -, calls, htold, hcalls⟩
    exact ⟨hsize, htold.follows (hcalls.follows fun p hp => parent_follows hs hp)⟩
  · rintro e s' ⟨calls, full, htold, hstart, hfull⟩
    have hall := hfull.follows fun p hp => parent_follows hs hp
    exact htold.follows fun r hr => hall r (hstart.subset hr)

/-- Operators in turn. The one at place `k` has the `k`-th of the new nodes. -/
theorem follows_operators (hs : s.Closed) (specs : List OperatorSpec) :
    Follows (SelfParent specs s.graph.size)
      (forM specs fun o => within o.id (discard (operator scope o))) s := by
  induction specs generalizing s with
  | nil => exact Graph.Follows.refl _
  | cons spec rest ih =>
    have hfirst : ∀ h, SelfParent [spec] s.graph.size h →
        SelfParent (spec :: rest) s.graph.size h := by
      rintro h ⟨k, o, rfl, ho, hparent⟩
      cases k with
      | zero => exact ⟨0, o, rfl, ho, hparent⟩
      | succ k => exact nomatch ho
    have hothers : ∀ h, SelfParent rest (s.graph.size + 1) h →
        SelfParent (spec :: rest) s.graph.size h := by
      rintro h ⟨k, o, rfl, ho, hparent⟩
      exact ⟨k + 1, o, Nat.add_right_comm .., ho, hparent⟩
    have hworks : Works True scope [] (operator scope spec) fun h => [h] := works_operator spec
    have hone := (follows_operator hs scope spec).and
      (hworks s fun _ => ⟨hs, Session.Has.nil s⟩)
    unfold Follows
    rw [List.forM_cons, ends_bind, ends_within, ends_discard]
    refine hone.mono ?_ ?_
    · rintro h s₁ ⟨⟨hsize, hfollows⟩, hchanges, -⟩
      -- The next operators are compiled in a session that is closed too, from the next node on.
      have hrest := ih (hchanges.closed trivial hs)
      rw [hsize] at hrest
      have hnode := hfollows.mono hfirst
      exact Ends.mono hrest (fun _ _ h => hnode.trans (h.mono hothers))
        fun _ _ h => hnode.trans (h.mono hothers)
    · rintro e s₁ ⟨hfollows, -⟩
      exact hfollows.mono hfirst

/-- Streams and listeners make no links at all. -/
theorem follows_of_asks {γ : Type} {xs : List γ} {asks : γ → Request → Prop}
    (h : ∀ x r, asks x r → r.isLink = false) :
    ∀ calls, List.Forall₂ asks xs calls → ∀ r ∈ calls, r.Follows loops := by
  intro calls hcalls
  induction hcalls with
  | nil => exact fun r hr => nomatch hr
  | cons hr _ ih =>
    intro q hq
    obtain rfl | hq := List.mem_cons.mp hq
    · exact Request.follows_of_not_link (h _ _ hr)
    · exact ih q hq

theorem follows_specification (hs : s.Closed) (spec : Spec) :
    Follows (SelfParent spec.operators s.graph.size) (specification scope spec) s := by
  have hstream := @follows_of_asks (SelfParent spec.operators s.graph.size) _ spec.streams
    StreamSpec.Asks fun _ r ⟨_, _, _, _, _, hr⟩ => hr ▸ rfl
  have hlistener := @follows_of_asks (SelfParent spec.operators s.graph.size) _ spec.updates
    UpdateSpec.Asks fun _ r ⟨_, _, _, _, _, hr⟩ => hr ▸ rfl
  refine follows_bind (follows_operators hs spec.operators) fun _ s₁ => ?_
  refine follows_bind ((makes_streams scope spec.streams s₁).follows hstream hstream) fun _ s₂ => ?_
  exact (makes_listeners scope spec.updates s₂).follows hlistener hlistener

end Compile

/-! ## Operations -/

/-- The operators that an operation makes nodes for. -/
def Operation.operators : Operation → List OperatorSpec
  | .compile spec => spec.operators
  | .compileIn _ spec => spec.operators
  | .operator _ spec => [spec]
  | .instantiate subflow _ => subflow.spec.operators
  | _ => []

/-- An operation that hands over no nodes adds only edges that lead forward, but for the operators
that are their own parents. -/
theorem Operation.follows_after {s : Session} (hs : s.Closed) {op : Operation}
    (h : op.isManual = false) :
    s.graph.Follows (SelfParent op.operators s.graph.size) (op.after s).graph := by
  have hquiet : ∀ {α : Type} {m : Compile α}, Compile.Quiet m →
      Compile.Follows (SelfParent op.operators s.graph.size) (discard m) s := by
    intro α m hm
    unfold Compile.Follows
    rw [Compile.ends_discard]
    exact hm.follows s
  refine after_of_ends (P := fun s' => s.graph.Follows _ s'.graph) ?_
  -- Resolving and forking change nothing, and all others compile operators or make a stream.
  cases op with
  | compile spec => exact Compile.follows_specification hs spec
  | compileIn scope spec => exact Compile.follows_specification hs spec
  | operator scope spec =>
    show Compile.Ends (discard (Compile.operator scope spec)) s _ _
    rw [Compile.ends_discard]
    exact (Compile.follows_operator hs scope spec).mono (fun _ _ h => h.2) fun _ _ h => h
  | register scope spec handle => exact nomatch h
  | resolve scope value => exact hquiet (Compile.quiet_resolve value)
  | resolveReference scope r => exact hquiet (Compile.quiet_resolveReference r)
  | resolveInto scope params members => exact hquiet (Compile.quiet_resolveInto params members)
  | fork parent index =>
    show Compile.Ends (discard (Compile.fork parent index)) s _ _
    rw [Compile.ends_discard, Compile.ends_fork_forked]
    cases s.scopes.scope? parent with
    | none => exact .refl _
    | some above => exact .refl _
  | instantiate subflow index =>
    show Compile.Ends (discard (Compile.instantiate subflow index)) s _ _
    rw [Compile.ends_discard, Compile.ends_instantiate]
    split
    · exact .refl _
    · split
      · exact .refl _
      · cases s.scopes.scope? subflow.scope with
        | none => exact .refl _
        | some above =>
          have hforked : (s.forked subflow.scope above index).Closed := hs.forked _ _ index
          exact Compile.follows_bind (Compile.follows_specification hforked subflow.spec)
            fun _ s' => (Compile.quiet_node _).follows s'
  | events source params =>
    show Compile.Ends (discard (Compile.send _)) s _ _
    rw [Compile.ends_discard, Compile.ends_send]
    have hsent : s.graph.Follows (SelfParent [] s.graph.size)
        (s.graph.after (.stream source params)) :=
      Graph.follows_after trivial
    exact ⟨fun _ => hsent, fun _ _ => hsent⟩
  | request r => exact nomatch h

/-! ## Runs -/

/-- One of the operations makes this node for an operator that is its own parent. -/
def Session.OwnParent (s : Session) (ops : List Operation) (h : Handle) : Prop :=
  ∃ before op after k o, ops = before ++ op :: after ∧ h = (s.run before).graph.size + k ∧
    h < (s.run (before ++ [op])).graph.size ∧ op.operators[k]? = some o ∧ o.parent = some o.id

/-- What a run that hands over no nodes adds to the graph of a closed session. -/
theorem Session.run_follows {s : Session} (hs : s.Closed) (hg : s.graph.Owned)
    {ops : List Operation} (h : ∀ op ∈ ops, op.isManual = false) :
    s.graph.Follows (s.OwnParent ops) (s.run ops).graph := by
  induction ops generalizing s with
  | nil => exact .refl _
  | cons op rest ih =>
    have hop : op.isManual = false := h op List.mem_cons_self
    have hgraph : (s.run [op]).graph.Owned :=
      Session.run_graph (P := Graph.Owned) (fun _ r hg => hg.after r) hg [op]
    have hclosed : (s.run [op]).Closed := hs.run (by simpa using hop)
    have hrest := ih hclosed hgraph fun o ho => h o (List.mem_cons_of_mem _ ho)
    intro e he
    obtain he | he := hrest e he
    · -- The edge is there after the first operation already.
      refine (Operation.follows_after hs hop e he).imp id (Or.imp id ?_)
      rintro ⟨hsame, hparent, k, o, htarget, ho, hown⟩
      exact ⟨hsame, hparent, [], op, rest, k, o, rfl, htarget, (hgraph.edges e he).2, ho, hown⟩
    · -- A later operation has added it, in a run that this one comes before.
      refine .inr (he.imp id ?_)
      rintro ⟨hsame, hparent, before, op', after, k, o, rfl, hmade⟩
      exact ⟨hsame, hparent, op :: before, op', after, k, o, rfl, hmade⟩

/-- A path along edges that are not loops leads to a larger handle. -/
theorem Graph.lt_of_path {g : Graph} (h : ∀ e ∈ g.edges, e.source < e.target ∨ e.source = e.target)
    {a b : Handle}
    (path : Relation.TransGen (fun a b => a ≠ b ∧ ∃ d, (⟨a, b, d⟩ : Edge) ∈ g.edges) a b) :
    a < b := by
  have hstep : ∀ {a b : Handle}, (a ≠ b ∧ ∃ d, (⟨a, b, d⟩ : Edge) ∈ g.edges) → a < b := by
    rintro a b ⟨hne, d, he⟩
    exact (h _ he).resolve_right hne
  induction path with
  | single hab => exact hstep hab
  | tail _ hbc ih => exact Nat.lt_trans ih (hstep hbc)

/-- Every run that hands over no nodes, failures included, leaves a graph whose edges lead from
nodes to nodes that have been made later. The only exceptions are parent edges from a node to
itself, and only the node of an operator that declares itself as its parent has one. So the graph
is acyclic but for these. -/
theorem edges_follow_creation (library : Option Library) (transforms : Registry)
    (depthLimit : Nat) (ops : List Operation) (h : ∀ op ∈ ops, op.isManual = false) :
    let start := Session.new library transforms depthLimit
    let g := (start.run ops).graph
    (∀ e ∈ g.edges, e.target < g.size ∧
      (e.source < e.target ∨
        e.source = e.target ∧ e.dependency = .parent ∧ start.OwnParent ops e.target)) ∧
      ∀ node, ¬ Relation.TransGen (fun a b => a ≠ b ∧ ∃ d, (⟨a, b, d⟩ : Edge) ∈ g.edges) node
        node := by
  intro start g
  have hfollows : Graph.empty.Follows (start.OwnParent ops) g :=
    Session.run_follows (Session.closed_new library transforms depthLimit) Graph.owned_empty h
  have hg : g.Owned := Session.run_graph (P := Graph.Owned) (fun _ r hg => hg.after r)
    Graph.owned_empty ops
  have hedge : ∀ e ∈ g.edges, e.Follows (start.OwnParent ops) := fun e he =>
    (hfollows e he).resolve_left (fun hnone => nomatch hnone)
  refine ⟨fun e he => ⟨(hg.edges e he).2, hedge e he⟩, fun node hcycle => ?_⟩
  exact Nat.lt_irrefl node (Graph.lt_of_path (fun e he => (hedge e he).imp id And.left) hcycle)

/-- An operator that is its own parent, one below it, and one whose parent is missing. -/
def ownParentRun : List Operation :=
  [.compile ⟨[{ OperatorSpec.named "a" with parent := some ⟨"a"⟩ },
      { OperatorSpec.named "b" with parent := some ⟨"a"⟩ }], [], []⟩,
    .operator ScopeTree.rootId { OperatorSpec.named "c" with parent := some ⟨"d"⟩ }]

/-- The first operator has a parent edge to itself, since it is its own parent, and the other edge
leads forward. -/
theorem edges_follow_creation_loop :
    (∀ op ∈ ownParentRun, op.isManual = false) ∧
      ((Session.new none .empty 64).run ownParentRun).graph.edges =
        [⟨0, 0, .parent⟩, ⟨0, 1, .parent⟩] ∧
      (Session.new none .empty 64).OwnParent ownParentRun 0 := by
  have hops : ∀ op ∈ ownParentRun, op.isManual = false := by
    intro op hop
    simp only [ownParentRun, List.mem_cons, List.not_mem_nil, or_false] at hop
    obtain rfl | rfl := hop <;> rfl
  have hedges : ((Session.new none .empty 64).run ownParentRun).graph.edges =
      [⟨0, 0, .parent⟩, ⟨0, 1, .parent⟩] := by
    decide +kernel
  have hloop := (edges_follow_creation none .empty 64 ownParentRun hops).1 ⟨0, 0, .parent⟩ (by
    rw [hedges]
    exact List.mem_cons_self)
  obtain ⟨-, hforward | ⟨-, -, hown⟩⟩ := hloop
  · exact absurd hforward (Nat.lt_irrefl 0)
  · exact ⟨hops, hedges, hown⟩

end Dataflow
