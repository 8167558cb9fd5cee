import Dataflow.Graph.Request
import Dataflow.Proofs.ListModify

/-!
# What a request does to the graph

A request is refused for the first handle among those it checks that names no node, or for a
resource that cannot be fetched. `perform_eq` says so, and says what the graph is afterwards:
`carried` where the request is carried out and `refused` where it is not. The two differ from the
graph before in a few ways only, and all other facts about requests are read off them:

* `refusal?_eq_some`: why a request is refused
* `answer_lt_size`: the handle that answers a request names a node
* `size_le_after`: no request removes a node
* `params_after`: new parameters refer to nodes that exist
-/

namespace Dataflow

/-- The handles that must name a node for a request to be carried out, in the order in which they
are checked. -/
def Request.checked : Request → List Handle
  | .add _ params _ => params.handles.map Prod.snd
  | .connect parent children => parent :: children
  | .addTarget source target => [target, source]
  | .listen l => [l.source, l.target]
  | .ingest node _ _ => [node]
  | .fetch node _ _ => [node]
  | .pulse node _ => [node]
  | .stream source params => source.parent.toList ++ params.handles.map Prod.snd

namespace Graph

/-- The first of some handles that names no node. -/
def missing? (g : Graph) (handles : List Handle) : Option Handle :=
  handles.find? fun h => decide (g.size ≤ h)

@[simp] theorem missing?_nil (g : Graph) : g.missing? [] = none := rfl

theorem missing?_cons (g : Graph) (h : Handle) (rest : List Handle) :
    g.missing? (h :: rest) = if h < g.size then g.missing? rest else some h := by
  by_cases hlt : h < g.size
  · have hge : ¬ g.size ≤ h := Nat.not_le.mpr hlt
    simp [missing?, hlt, hge]
  · have hge : g.size ≤ h := Nat.not_lt.mp hlt
    simp [missing?, hlt, hge]

theorem missing?_append (g : Graph) (xs ys : List Handle) :
    g.missing? (xs ++ ys) = match g.missing? xs with
      | none => g.missing? ys
      | some h => some h := by
  rw [missing?, List.find?_append, ← missing?, ← missing?]
  cases g.missing? xs <;> rfl

theorem missing?_eq_none {g : Graph} {handles : List Handle} :
    g.missing? handles = none ↔ ∀ h ∈ handles, h < g.size := by
  simp [missing?]

theorem missing?_eq_some {g : Graph} {handles : List Handle} {h : Handle}
    (hm : g.missing? handles = some h) : h ∈ handles ∧ g.size ≤ h := by
  refine ⟨List.mem_of_find?_eq_some hm, ?_⟩
  simpa using List.find?_some hm

/-! ## The graph afterwards -/

/-- The graph with one more node and more edges. -/
def grown (g : Graph) (node : Node) (edges : List Edge) : Graph :=
  { g with nodes := g.nodes ++ [node], edges := g.edges ++ edges }

/-- The graph with more edges. -/
def linked (g : Graph) (edges : List Edge) : Graph := { g with edges := g.edges ++ edges }

/-- The graph with one node changed. -/
def adjusted (g : Graph) (handle : Handle) (f : Node → Node) : Graph :=
  { g with nodes := g.nodes.modify handle f }

@[simp] theorem size_grown (g : Graph) (node : Node) (edges : List Edge) :
    (g.grown node edges).size = g.size + 1 := by
  simp [grown, size]

@[simp] theorem size_linked (g : Graph) (edges : List Edge) : (g.linked edges).size = g.size := rfl

@[simp] theorem size_adjusted (g : Graph) (handle : Handle) (f : Node → Node) :
    (g.adjusted handle f).size = g.size := by
  simp [adjusted, size]

/-- The parent edges from a node to others. -/
def parentEdges (parent : Handle) (children : List Handle) : List Edge :=
  children.map (⟨parent, ·, .parent⟩)

/-- The edges that a set of parameters gives a node. -/
def paramEdges (node : Handle) (params : Parameters) : List Edge :=
  params.handles.map fun p => ⟨p.2, node, .param p.1⟩

/-- The graph after a request that is carried out. -/
def carried (g : Graph) : Request → Graph
  | .add behavior params react =>
    g.grown (.fresh (.operator behavior) params react)
      (if react then paramEdges g.size params else [])
  | .connect parent children => g.linked (parentEdges parent children)
  | .addTarget source target =>
    g.adjusted source fun n =>
      if target ∈ n.targets then n else { n with targets := n.targets ++ [target] }
  | .listen l => { g with listeners := g.listeners ++ [l] }
  | .ingest node data format =>
    { g.adjusted node fun n => { n with records := n.records ++ Edit.ingested data } with
      loads := g.loads ++ [⟨node, .ingest, data, format⟩] }
  | .fetch node resource format =>
    { g with loads := g.loads ++ [⟨node, .request, resource, format⟩] }
  | .pulse node changes => g.adjusted node fun n => { n with records := changes.apply n.records }
  | .stream source params =>
    g.grown (.fresh (.stream source) params true)
      (source.parent.toList.map fun p => ⟨p, g.size, .stream⟩)

/-- The graph after a request that is refused. Only the links made before the first child that
does not exist stay. -/
def refused (g : Graph) : Request → Graph
  | .connect parent children =>
    if parent < g.size then
      g.linked (parentEdges parent (children.takeWhile fun c => decide (c < g.size)))
    else g
  | _ => g

/-- The handle that answers a request: the node made, or else the node addressed. -/
def answer (g : Graph) : Request → Handle
  | .add .. => g.size
  | .connect parent _ => parent
  | .addTarget source _ => source
  | .listen l => l.source
  | .ingest node _ _ => node
  | .fetch node _ _ => node
  | .pulse node _ => node
  | .stream .. => g.size

/-- Why a request is refused, none if it is carried out. -/
def refusal? (g : Graph) (r : Request) : Option GraphError :=
  match g.missing? r.checked with
  | some h => some (.unknownOperator h)
  | none =>
    match r with
    | .fetch node resource _ => if Edit.fetchable resource then none else some (.load node resource)
    | _ => none

/-! ## Checks -/

/-- Two steps in sequence, as a case distinction on how the first ends. -/
theorem bind_run {ε σ α β : Type} (m : EStateM ε σ α) (f : α → EStateM ε σ β) (s : σ) :
    (m >>= f) s = match m s with
      | .ok a s' => f a s'
      | .error e s' => .error e s' := rfl

theorem Edit.require_run (h : Handle) (g : Graph) :
    Edit.require h g = if h < g.size then .ok () g else .error (.unknownOperator h) g := by
  show (if h < g.size then pure () else throw (GraphError.unknownOperator h) : Edit Unit) g = _
  split <;> rfl

/-- Checking several handles stops at the first that names no node. -/
theorem Edit.requireAll_run (handles : List Handle) (g : Graph) :
    Edit.requireAll handles g = match g.missing? handles with
      | none => .ok () g
      | some h => .error (.unknownOperator h) g := by
  -- Each check leaves the graph alone, so the rest is checked in the same one.
  induction handles with
  | nil => rfl
  | cons h rest ih =>
    rw [requireAll, List.forM_cons, bind_run, require_run, missing?_cons]
    by_cases hlt : h < g.size
    · rw [if_pos hlt, if_pos hlt]
      exact ih
    · rw [if_neg hlt, if_neg hlt]

theorem Edit.modifyNode_run (h : Handle) (f : Node → Node) (g : Graph) :
    Edit.modifyNode h f g =
      if h < g.size then .ok () (g.adjusted h f) else .error (.unknownOperator h) g := by
  rw [Edit.modifyNode, bind_run, Edit.require_run]
  by_cases hlt : h < g.size
  · simp only [if_pos hlt]; rfl
  · simp only [if_neg hlt]

/-- What follows a check runs exactly when nothing is missing. -/
private theorem requireAll_bind {α : Type} (handles : List Handle) (f : Unit → Edit α)
    (g : Graph) :
    (Edit.requireAll handles >>= f) g = match g.missing? handles with
      | none => f () g
      | some h => .error (.unknownOperator h) g := by
  rw [bind_run, Edit.requireAll_run]
  cases g.missing? handles <;> rfl

private theorem require_bind {α : Type} (h : Handle) (f : Unit → Edit α) (g : Graph) :
    (Edit.require h >>= f) g =
      if h < g.size then f () g else .error (.unknownOperator h) g := by
  rw [bind_run, Edit.require_run]
  by_cases hlt : h < g.size
  · simp only [if_pos hlt]
  · simp only [if_neg hlt]

/-! ## Requests -/

/-- Linking children one by one stops at the first that does not exist. -/
theorem Edit.connectChildren_run (parent : Handle) (children : List Handle) (g : Graph) :
    (forM children (Edit.connectChild parent)) g = match g.missing? children with
      | none => .ok () (g.linked (parentEdges parent children))
      | some h => .error (.unknownOperator h)
          (g.linked (parentEdges parent (children.takeWhile fun c => decide (c < g.size)))) := by
  induction children generalizing g with
  | nil => simp [missing?, parentEdges, linked]; rfl
  | cons c rest ih =>
    rw [List.forM_cons, Edit.connectChild, bind_run, require_bind, missing?_cons]
    by_cases hlt : c < g.size
    · -- The link is made, and the rest is linked in a graph of the same size.
      have hlink : ∀ cs, (g.linked [⟨parent, c, .parent⟩]).linked (parentEdges parent cs) =
          g.linked (parentEdges parent (c :: cs)) := by
        intro cs
        simp [linked, parentEdges]
      rw [if_pos hlt, if_pos hlt, List.takeWhile_cons_of_pos (by simpa using hlt)]
      show (forM rest (Edit.connectChild parent)) (g.linked [⟨parent, c, .parent⟩]) = _
      rw [ih, ← hlink, ← hlink]
      rfl
    · rw [if_neg hlt, if_neg hlt, List.takeWhile_cons_of_neg (by simpa using hlt)]
      simp [linked, parentEdges]

/-- What a request does: it is carried out unless there is a reason to refuse it. -/
theorem perform_eq (r : Request) (g : Graph) :
    perform r g = match g.refusal? r with
      | none => .ok (g.answer r) (g.carried r)
      | some e => .error e (g.refused r) := by
  -- Every request is its checks, in the order of `Request.checked`, and then one edit. So each case
  -- runs the checks and is left with the edit.
  cases r with
  | add behavior params react =>
    show Edit.add behavior params react g = _
    rw [Edit.add, requireAll_bind]
    simp only [refusal?, Request.checked]
    cases g.missing? (params.handles.map Prod.snd) with
    | some h => rfl
    | none =>
      -- A node that does not react gets no edges, which is the same as an empty list of them.
      cases react
      · simp [carried, grown, answer]; rfl
      · rfl
  | connect parent children =>
    show (Edit.connect parent children >>= fun _ => pure parent) g = _
    rw [bind_run, Edit.connect, require_bind]
    simp only [refusal?, Request.checked, missing?_cons]
    by_cases hlt : parent < g.size
    · rw [if_pos hlt, if_pos hlt, Edit.connectChildren_run]
      cases g.missing? children with
      | none => rfl
      | some h => simp [refused, hlt]
    · simp [hlt, refused]
  | addTarget source target =>
    show (Edit.addTarget source target >>= fun _ => pure source) g = _
    rw [bind_run, Edit.addTarget, require_bind]
    simp only [refusal?, Request.checked, missing?_cons, missing?_nil, Edit.modifyNode_run]
    by_cases ht : target < g.size
    · by_cases hs : source < g.size
      · simp only [if_pos ht, if_pos hs]; rfl
      · simp only [if_pos ht, if_neg hs]; rfl
    · simp only [if_neg ht]; rfl
  | listen l =>
    show (Edit.listen l >>= fun _ => pure l.source) g = _
    rw [bind_run, Edit.listen, require_bind, require_bind]
    simp only [refusal?, Request.checked, missing?_cons, missing?_nil]
    by_cases hs : l.source < g.size
    · by_cases ht : l.target < g.size
      · simp only [if_pos ht, if_pos hs]; rfl
      · simp only [if_pos hs, if_neg ht]; rfl
    · simp only [if_neg hs]; rfl
  | ingest node data format =>
    show (Edit.ingest node data format >>= fun _ => pure node) g = _
    rw [bind_run, Edit.ingest, bind_run, Edit.modifyNode_run]
    simp only [refusal?, Request.checked, missing?_cons, missing?_nil]
    by_cases hn : node < g.size
    · simp only [if_pos hn]; rfl
    · simp only [if_neg hn]; rfl
  | fetch node resource format =>
    show (Edit.fetch node resource format >>= fun _ => pure node) g = _
    rw [bind_run, Edit.fetch, require_bind]
    simp only [refusal?, Request.checked, missing?_cons, missing?_nil]
    -- The resource is looked at only for a node that exists.
    by_cases hn : node < g.size
    · simp only [if_pos hn]
      cases Edit.fetchable resource <;> rfl
    · simp only [if_neg hn]; rfl
  | pulse node changes =>
    show (Edit.pulse node changes >>= fun _ => pure node) g = _
    rw [bind_run, Edit.pulse, Edit.modifyNode_run]
    simp only [refusal?, Request.checked, missing?_cons, missing?_nil]
    by_cases hn : node < g.size
    · simp only [if_pos hn]; rfl
    · simp only [if_neg hn]; rfl
  | stream source params =>
    show Edit.stream source params g = _
    rw [Edit.stream, requireAll_bind, requireAll_bind]
    simp only [refusal?, Request.checked, missing?_append]
    cases g.missing? source.parent.toList with
    | some h => rfl
    | none =>
      cases g.missing? (params.handles.map Prod.snd) with
      | some h => rfl
      | none => rfl

/-! ## Consequences -/

/-- The graph after a request, carried out or refused. -/
def after (g : Graph) (r : Request) : Graph :=
  match g.refusal? r with
  | none => g.carried r
  | some _ => g.refused r

/-- A request is refused only for a handle that names no node, or for a resource. -/
theorem refusal?_eq_some {g : Graph} {r : Request} {e : GraphError} (h : g.refusal? r = some e) :
    (∃ node ∈ r.checked, e = .unknownOperator node ∧ g.size ≤ node) ∨
      ∃ node resource, e = .load node resource := by
  unfold refusal? at h
  cases hm : g.missing? r.checked with
  | some node =>
    obtain ⟨hmem, hge⟩ := missing?_eq_some hm
    simp only [hm, Option.some.injEq] at h
    exact .inl ⟨node, hmem, h.symm, hge⟩
  | none =>
    simp only [hm] at h
    -- With nothing missing, only fetching can still be refused.
    split at h
    · split at h
      · exact nomatch h
      · exact .inr ⟨_, _, (Option.some.inj h).symm⟩
    · exact nomatch h

/-- All that a request checks exists where it is carried out. -/
theorem checked_lt_size {g : Graph} {r : Request} (h : g.refusal? r = none) :
    ∀ node ∈ r.checked, node < g.size := by
  unfold refusal? at h
  cases hm : g.missing? r.checked with
  | some node => simp [hm] at h
  | none => exact missing?_eq_none.mp hm

/-- A request that fetches nothing is carried out where all that it checks exists. -/
theorem refusal?_eq_none {g : Graph} {r : Request} (hc : ∀ node ∈ r.checked, node < g.size)
    (hr : ∀ node resource format, r ≠ .fetch node resource format) : g.refusal? r = none := by
  unfold refusal?
  rw [missing?_eq_none.mpr hc]
  cases r with
  | fetch node resource format => exact absurd rfl (hr node resource format)
  | _ => rfl

/-- A refused request adds at most parent edges, and only a refused link does. -/
theorem refused_eq_linked (g : Graph) (r : Request) :
    ∃ parent children, g.refused r = g.linked (parentEdges parent children) := by
  cases r with
  | connect parent children =>
    by_cases hlt : parent < g.size
    · exact ⟨parent, _, by simp only [refused, if_pos hlt]; rfl⟩
    · exact ⟨parent, [], by simp [refused, hlt, linked, parentEdges]⟩
  | _ => exact ⟨0, [], by simp only [refused, linked, parentEdges, List.map_nil, List.append_nil]⟩

/-- A request that is carried out changes the records or targets of one node, or makes a node
without targets from parameters that it has checked. -/
theorem nodes_carried (g : Graph) (r : Request) :
    (∃ node f, (g.carried r).nodes = g.nodes.modify node f ∧ ∀ n, (f n).params = n.params) ∨
      ∃ n, (g.carried r).nodes = g.nodes ++ [n] ∧ n.params.handles.map Prod.snd ⊆ r.checked ∧
        n.targets = [] ∧ g.answer r = g.size := by
  cases r with
  | add behavior params react => exact .inr ⟨_, rfl, fun h hh => hh, rfl, rfl⟩
  | stream source params =>
    exact .inr ⟨_, rfl, fun h hh => List.mem_append_right _ hh, rfl, rfl⟩
  | addTarget source target =>
    refine .inl ⟨_, _, rfl, fun n => ?_⟩
    split <;> rfl
  | ingest node data format => exact .inl ⟨_, _, rfl, fun _ => rfl⟩
  | pulse node changes => exact .inl ⟨_, _, rfl, fun _ => rfl⟩
  -- The other requests leave all nodes alone, which is a change of none.
  | _ => exact .inl ⟨g.size, id, by simp [carried, linked, size], fun _ => rfl⟩

/-- No request removes a node. -/
theorem size_le_after (g : Graph) (r : Request) : g.size ≤ (g.after r).size := by
  unfold after
  split
  · obtain ⟨node, f, hn, -⟩ | ⟨n, hn, -⟩ := g.nodes_carried r
    · simp [size, hn]
    · simp [size, hn]
  · obtain ⟨parent, children, he⟩ := g.refused_eq_linked r
    rw [he]
    exact Nat.le_of_eq (size_linked _ _).symm

/-- The handle that answers a request names a node. -/
theorem answer_lt_size {g : Graph} {r : Request} (h : g.refusal? r = none) :
    g.answer r < (g.carried r).size := by
  have hle : g.size ≤ (g.carried r).size := by
    have := g.size_le_after r
    rwa [after, h] at this
  -- A node that was made is the last one. A node that was addressed has been checked.
  have hc := checked_lt_size h
  cases r with
  | add behavior params react => simp [answer, carried]
  | stream source params => simp [answer, carried]
  | connect parent children => exact Nat.lt_of_lt_of_le (hc parent (by simp [Request.checked])) hle
  | addTarget source target => exact Nat.lt_of_lt_of_le (hc source (by simp [Request.checked])) hle
  | listen l => exact Nat.lt_of_lt_of_le (hc l.source (by simp [Request.checked])) hle
  | ingest node data format => exact Nat.lt_of_lt_of_le (hc node (by simp [Request.checked])) hle
  | fetch node resource format => exact Nat.lt_of_lt_of_le (hc node (by simp [Request.checked])) hle
  | pulse node changes => exact Nat.lt_of_lt_of_le (hc node (by simp [Request.checked])) hle

/-- The parameters of a node were there before, or refer to nodes that were. -/
theorem params_after {g : Graph} {r : Request} {n : Node} (hn : n ∈ (g.after r).nodes) :
    (∃ m ∈ g.nodes, m.params = n.params) ∨ ∀ p ∈ n.params.handles, p.2 < g.size := by
  unfold after at hn
  split at hn
  · rename_i hok
    obtain ⟨node, f, hnodes, hf⟩ | ⟨made, hnodes, hsub, -⟩ := g.nodes_carried r
    · -- The node stands where it stood before, with the parameters that it had.
      rw [hnodes] at hn
      obtain hn | ⟨m, hm, rfl⟩ := List.mem_of_mem_modify hn
      · exact .inl ⟨n, hn, rfl⟩
      · exact .inl ⟨m, hm, (hf m).symm⟩
    · rw [hnodes, List.mem_append, List.mem_singleton] at hn
      obtain hn | rfl := hn
      · exact .inl ⟨n, hn, rfl⟩
      · -- All that a new node refers to has been checked.
        exact .inr fun p hp => checked_lt_size hok _ (hsub (List.mem_map_of_mem hp))
  · obtain ⟨parent, children, he⟩ := g.refused_eq_linked r
    rw [he] at hn
    exact .inl ⟨n, hn, rfl⟩

/-- A listener was there before, or has just been registered. -/
theorem listeners_after {g : Graph} {r : Request} {l : Listener}
    (hl : l ∈ (g.after r).listeners) : l ∈ g.listeners ∨ r = .listen l := by
  unfold after at hl
  split at hl
  · cases r with
    | listen l' =>
      simp only [carried, List.mem_append, List.mem_singleton] at hl
      obtain hl | rfl := hl
      · exact .inl hl
      · exact .inr rfl
    | _ => exact .inl hl
  · obtain ⟨parent, children, he⟩ := g.refused_eq_linked r
    rw [he] at hl
    exact .inl hl

end Graph

end Dataflow
