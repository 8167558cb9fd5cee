import Dataflow.Proofs.QuietSteps
import Mathlib

/-!
# The order of requests

Compiling a specification asks the graph for one thing after another, in the order in which the
entries are declared. `Spec.Series` lists the requests: for each operator its node, then its initial
data, then the link to its parent; for each stream its node; for each update its listener. Nodes are
numbered as they are made, so the series says which node is addressed.

`Session.Told` records which requests have been made between two sessions. The main result is
`requests_in_order`: a compilation that succeeds makes the whole series, and one that fails makes
the first few requests of a series, the one that was refused included. Such a series may go on to
link nodes to parents that are not there, so it is one for a scope in which every entry is seen
(`filled`).
-/

namespace Dataflow

/-! ## Series of requests -/

/-- The request for the initial data of a node: bulk data before a resource before the value itself.
A marker counts if its value is truthy. -/
inductive LoadRequest (handle : Handle) (v : Json) : Request → Prop where
  | ingest {data : Json} (h : v.get? "$ingest" = some data) (truthy : data.truthy = true) :
    LoadRequest handle v (.ingest handle data (DataLoad.format? v))
  | fetch {resource : Json} (noData : ∀ data, v.get? "$ingest" = some data → data.truthy = false)
      (h : v.get? "$request" = some resource) (truthy : resource.truthy = true) :
    LoadRequest handle v (.fetch handle resource (DataLoad.format? v))
  | inline (noData : ∀ data, v.get? "$ingest" = some data → data.truthy = false)
      (noResource : ∀ resource, v.get? "$request" = some resource → resource.truthy = false) :
    LoadRequest handle v (.pulse handle ⟨Changeset.recordsOf v, []⟩)

/-- The requests for initial data: one for an operator that collects and has a value, none for all
others. -/
def OperatorSpec.Loads (spec : OperatorSpec) (handle : Handle) (calls : List Request) : Prop :=
  match spec.isCollect, spec.value with
  | true, some v => ∃ r, LoadRequest handle v r ∧ calls = [r]
  | _, _ => calls = []

/-- The requests that link a node to a parent, if there is one. -/
def linkRequests (handle : Handle) : Option Handle → List Request
  | none => []
  | some p => [.connect p [handle], .addTarget p handle]

/-- The requests for an operator whose node is `handle` and whose parent has the node `parent?`. -/
def OperatorSpec.Series (spec : OperatorSpec) (handle : Handle) (parent? : Option Handle)
    (calls : List Request) : Prop :=
  ∃ behavior params loads, spec.Loads handle loads ∧
    calls = .add behavior params spec.react :: (loads ++ linkRequests handle parent?)

/-- The requests for several operators in turn, where `seen` tells the nodes of the entries that are
seen at first, and `handle` is the next node that is made. An operator that declares a parent is
linked to the node of this entry, which may be its own. -/
inductive OperatorSeries : (EntryId → Option Handle) → Handle → List OperatorSpec →
    List Request → Prop where
  | nil {seen : EntryId → Option Handle} {handle : Handle} : OperatorSeries seen handle [] []
  | cons {seen : EntryId → Option Handle} {handle : Handle} {spec : OperatorSpec}
      {rest : List OperatorSpec} {own others : List Request}
      (linked : (spec.parent.bind (Function.update seen spec.id (some handle))).isSome =
        spec.parent.isSome)
      (first : spec.Series handle
        (spec.parent.bind (Function.update seen spec.id (some handle))) own)
      (next : OperatorSeries (Function.update seen spec.id (some handle)) (handle + 1) rest
        others) :
      OperatorSeries seen handle (spec :: rest) (own ++ others)

theorem OperatorSpec.Loads.of_mem {spec : OperatorSpec} {handle : Handle} {loads : List Request}
    (h : spec.Loads handle loads) {r : Request} (hr : r ∈ loads) : ∃ v, LoadRequest handle v r := by
  unfold OperatorSpec.Loads at h
  split at h
  · obtain ⟨load, hload, rfl⟩ := h
    obtain rfl := List.mem_singleton.mp hr
    exact ⟨_, hload⟩
  · rw [h] at hr
    exact nomatch hr

theorem OperatorSpec.Loads.series {spec : OperatorSpec} {handle : Handle} {loads : List Request}
    (h : spec.Loads handle loads) (behavior : Behavior) (params : Parameters)
    (parent? : Option Handle) : spec.Series handle parent?
      (.add behavior params spec.react :: (loads ++ linkRequests handle parent?)) :=
  ⟨behavior, params, loads, h, rfl⟩

/-- Only the first request for an operator makes a node. -/
theorem isMaking_of_mem {spec : OperatorSpec} {handle : Handle} {parent? : Option Handle}
    {loads : List Request} (h : spec.Loads handle loads) :
    ∀ r ∈ loads ++ linkRequests handle parent?, r.isMaking = false := by
  intro r hr
  obtain hr | hr := List.mem_append.mp hr
  · obtain ⟨v, hload⟩ := h.of_mem hr
    cases hload <;> rfl
  · cases parent? with
    | none => exact nomatch hr
    | some p =>
      simp only [linkRequests, List.mem_cons, List.not_mem_nil, or_false] at hr
      obtain rfl | rfl := hr <;> rfl

/-- The request is for the stream. -/
def StreamSpec.Asks (spec : StreamSpec) (r : Request) : Prop :=
  ∃ parent filter params, parent.isSome = spec.stream.isSome ∧
    filter.isSome = spec.filter.isSome ∧ r = .stream ⟨spec.source, spec.kind, parent, filter⟩ params

/-- The request is for the listener. -/
def UpdateSpec.Asks (spec : UpdateSpec) (r : Request) : Prop :=
  ∃ source target update params, update.isSome = spec.update.isSome ∧
    r = .listen ⟨source, target, update, params, spec.options⟩

/-- The requests for a specification: those for its operators, then one for each stream, then one
for each update, each in the order of declaration. -/
def Spec.Series (spec : Spec) (seen : EntryId → Option Handle) (handle : Handle)
    (calls : List Request) : Prop :=
  ∃ operators streams listeners, calls = operators ++ streams ++ listeners ∧
    OperatorSeries seen handle spec.operators operators ∧
    List.Forall₂ StreamSpec.Asks spec.streams streams ∧
    List.Forall₂ UpdateSpec.Asks spec.updates listeners

/-! ### There is a series for everything -/

/-- The request for the initial data in a value. -/
def loadRequest (handle : Handle) (v : Json) : Request :=
  match DataLoad.select v with
  | .ingest data format => .ingest handle data format
  | .request resource format => .fetch handle resource format
  | .inline records => .pulse handle (Changeset.empty.insert records)

/-- A marker that counts as absent has no truthy value. -/
theorem DataLoad.marked?_eq_none {key : String} {v : Json} (h : marked? key v = none) :
    ∀ w, v.get? key = some w → w.truthy = false := by
  intro w hw
  simpa [marked?, hw] using h

theorem DataLoad.marked?_eq_some {key : String} {v w : Json} (h : marked? key v = some w) :
    v.get? key = some w ∧ w.truthy = true := by
  simpa [marked?, Option.filter_eq_some_iff] using h

theorem loadRequest_loads (handle : Handle) (v : Json) :
    LoadRequest handle v (loadRequest handle v) := by
  unfold loadRequest DataLoad.select
  cases hi : DataLoad.marked? "$ingest" v with
  | some data =>
    obtain ⟨h, truthy⟩ := DataLoad.marked?_eq_some hi
    exact .ingest h truthy
  | none =>
    have noData := DataLoad.marked?_eq_none hi
    cases hr : DataLoad.marked? "$request" v with
    | some resource =>
      obtain ⟨h, truthy⟩ := DataLoad.marked?_eq_some hr
      exact .fetch noData h truthy
    | none => exact .inline noData (DataLoad.marked?_eq_none hr)

theorem OperatorSpec.exists_loads (spec : OperatorSpec) (handle : Handle) :
    ∃ calls, spec.Loads handle calls := by
  unfold Loads
  split
  · exact ⟨_, _, loadRequest_loads handle _, rfl⟩
  · exact ⟨[], rfl⟩

theorem OperatorSpec.exists_series (spec : OperatorSpec) (handle : Handle)
    (parent? : Option Handle) : ∃ calls, spec.Series handle parent? calls := by
  obtain ⟨loads, hloads⟩ := spec.exists_loads handle
  exact ⟨_, hloads.series (.plain none none) .empty parent?⟩

/-- Every entry is seen: those that are not seen yet have the first node. -/
def filled (seen : EntryId → Option Handle) : EntryId → Option Handle :=
  fun id => some ((seen id).getD 0)

theorem filled_of_some {seen : EntryId → Option Handle} {id : EntryId} {h : Handle}
    (hid : seen id = some h) : filled seen id = some h := by
  simp [filled, hid]

theorem update_filled (seen : EntryId → Option Handle) (id : EntryId) (h : Handle) :
    Function.update (filled seen) id (some h) = filled (Function.update seen id (some h)) := by
  funext other
  by_cases he : other = id
  · subst he
    simp [filled]
  · simp [filled, he]

/-- Where every entry is seen, every parent is. -/
theorem bind_filled (seen : EntryId → Option Handle) (parent : Option EntryId) :
    (parent.bind (filled seen)).isSome = parent.isSome := by
  cases parent <;> rfl

/-- A link that can be made is the same where every entry is seen; one that cannot is none. -/
theorem linkRequests_filled (seen : EntryId → Option Handle) (handle : Handle)
    (parent : Option EntryId) :
    linkRequests handle (parent.bind seen) <+: linkRequests handle (parent.bind (filled seen)) := by
  cases h : parent.bind seen with
  | none => exact List.nil_prefix
  | some p =>
    obtain ⟨id, rfl, hid⟩ := Option.bind_eq_some_iff.mp h
    simp [filled_of_some hid]

/-- What is asked for an operator goes on as if its parent were seen. -/
theorem OperatorSpec.Series.filled {spec : OperatorSpec} {handle : Handle}
    {seen : EntryId → Option Handle} {calls : List Request}
    (h : spec.Series handle (spec.parent.bind seen) calls) :
    ∃ full, calls <+: full ∧ spec.Series handle (spec.parent.bind (filled seen)) full := by
  obtain ⟨behavior, params, loads, hloads, rfl⟩ := h
  have hlinks := linkRequests_filled seen handle spec.parent
  refine ⟨_, List.cons_prefix_cons.mpr ⟨rfl, ?_⟩, hloads.series behavior params _⟩
  exact (List.prefix_append_right_inj loads).mpr hlinks

namespace OperatorSeries

variable {seen : EntryId → Option Handle} {handle : Handle} {spec : OperatorSpec}
  {rest : List OperatorSpec} {own others : List Request}

/-- The first operator of a series in which every entry is seen. -/
theorem cons_filled
    (first : spec.Series handle
      (spec.parent.bind (Dataflow.filled (Function.update seen spec.id (some handle)))) own)
    (next : OperatorSeries (Dataflow.filled (Function.update seen spec.id (some handle)))
      (handle + 1) rest others) :
    OperatorSeries (Dataflow.filled seen) handle (spec :: rest) (own ++ others) := by
  rw [← update_filled] at first next
  refine .cons ?_ first next
  rw [update_filled]
  exact bind_filled _ spec.parent

theorem exists_filled (seen : EntryId → Option Handle) (handle : Handle)
    (specs : List OperatorSpec) :
    ∃ calls, OperatorSeries (Dataflow.filled seen) handle specs calls := by
  induction specs generalizing seen handle with
  | nil => exact ⟨[], .nil⟩
  | cons spec rest ih =>
    obtain ⟨others, next⟩ := ih (Function.update seen spec.id (some handle)) (handle + 1)
    obtain ⟨own, first⟩ := spec.exists_series handle
      (spec.parent.bind (Dataflow.filled (Function.update seen spec.id (some handle))))
    exact ⟨own ++ others, cons_filled first next⟩

/-- A parent that is seen is the same where every entry is. -/
theorem bind_of_linked {parent : Option EntryId} (h : (parent.bind seen).isSome = parent.isSome) :
    parent.bind (Dataflow.filled seen) = parent.bind seen := by
  cases parent with
  | none => rfl
  | some id =>
    obtain ⟨p, hid⟩ := Option.isSome_iff_exists.mp h
    rw [hid]
    exact filled_of_some hid

/-- A series stays one if every entry is seen. -/
theorem filled {specs : List OperatorSpec} {calls : List Request}
    (h : OperatorSeries seen handle specs calls) :
    OperatorSeries (Dataflow.filled seen) handle specs calls := by
  induction h with
  | nil => exact .nil
  | cons linked first next ih =>
    rw [← bind_of_linked linked] at first
    exact cons_filled first ih

end OperatorSeries

theorem StreamSpec.exists_asks (spec : StreamSpec) : ∃ r, spec.Asks r :=
  ⟨_, spec.stream.map fun _ => 0, spec.filter.map fun _ => ⟨0, none, [], .path []⟩, .empty,
    by simp, by simp, rfl⟩

theorem UpdateSpec.exists_asks (spec : UpdateSpec) : ∃ r, spec.Asks r :=
  ⟨_, 0, 0, spec.update.map fun _ => .value .null, .empty, by simp, rfl⟩

theorem exists_forall₂ {α : Type} {asks : α → Request → Prop} (h : ∀ x, ∃ r, asks x r)
    (xs : List α) : ∃ calls, List.Forall₂ asks xs calls := by
  induction xs with
  | nil => exact ⟨[], .nil⟩
  | cons x rest ih =>
    obtain ⟨r, hr⟩ := h x
    obtain ⟨calls, hcalls⟩ := ih
    exact ⟨r :: calls, .cons hr hcalls⟩

/-! ## What has been asked for -/

/-- The requests that have been made on the way from one session to another. The graph is what they
have made of it. -/
structure Session.Told (s : Session) (calls : List Request) (s' : Session) : Prop where
  journal : s'.journal = s.journal ++ calls
  graph : s'.graph = calls.foldl Graph.after s.graph

namespace Session

variable {s s' s'' : Session} {xs ys : List Request}

theorem Told.refl (s : Session) : s.Told [] s := ⟨(List.append_nil _).symm, rfl⟩

theorem Told.trans (h : s.Told xs s') (h' : s'.Told ys s'') : s.Told (xs ++ ys) s'' where
  journal := by rw [h'.journal, h.journal, List.append_assoc]
  graph := by rw [h'.graph, h.graph, List.foldl_append]

theorem told_sent (s : Session) (r : Request) : s.Told [r] (s.sent r) := ⟨rfl, rfl⟩

theorem Untouched.told (h : s.Untouched s') : s.Told [] s' :=
  ⟨by rw [h.journal, List.append_nil], h.graph⟩

/-- Quiet steps before and after do not show. -/
theorem Told.quiet (h : s.Told xs s') (h' : s'.Untouched s'') : s.Told xs s'' := by
  simpa using h.trans h'.told

theorem Untouched.then_told (h : s.Untouched s') (h' : s'.Told xs s'') : s.Told xs s'' :=
  h.told.trans h'

/-- The nodes that are seen from a scope once the next node is recorded for an entry. -/
def withNext (s : Session) (scope : ScopeId) (id : EntryId) : EntryId → Option Handle :=
  Function.update (s.scopes.node? scope) id (some s.graph.size)

/-- The operator has its node, which is linked to its parent. -/
structure Made (s : Session) (scope : ScopeId) (spec : OperatorSpec) (s' : Session) : Prop where
  size : s'.graph.size = s.graph.size + 1
  nodes : s'.scopes.node? scope = s.withNext scope spec.id
  linked : (spec.parent.bind (s.withNext scope spec.id)).isSome = spec.parent.isSome
  told : ∃ calls, s.Told calls s' ∧
    spec.Series s.graph.size (spec.parent.bind (s.withNext scope spec.id)) calls

/-- The first few of the requests for an operator have been made. -/
def Tried (s : Session) (scope : ScopeId) (spec : OperatorSpec) (s' : Session) : Prop :=
  ∃ calls full, s.Told calls s' ∧ calls <+: full ∧
    spec.Series s.graph.size (spec.parent.bind (s.withNext scope spec.id)) full

variable {scope : ScopeId} {spec : OperatorSpec}

theorem Untouched.withNext (h : s.Untouched s') (id : EntryId) :
    s'.withNext scope id = s.withNext scope id := by
  rw [Session.withNext, h.graph, funext (h.nodes scope)]
  rfl

/-- Nothing has been asked for yet. -/
theorem Untouched.tried (h : s.Untouched s') : s.Tried scope spec s' := by
  obtain ⟨series, hseries⟩ :=
    spec.exists_series s.graph.size (spec.parent.bind (s.withNext scope spec.id))
  exact ⟨[], series, h.told, List.nil_prefix, hseries⟩

theorem Made.of_untouched (h : s'.Made scope spec s'') (hq : s.Untouched s') :
    s.Made scope spec s'' := by
  obtain ⟨hsize, hnodes, hlinked, calls, htold, hcalls⟩ := h
  rw [hq.withNext] at hnodes hlinked hcalls
  rw [hq.graph] at hsize hcalls
  exact ⟨hsize, hnodes, hlinked, calls, hq.then_told htold, hcalls⟩

theorem Tried.of_untouched (h : s'.Tried scope spec s'') (hq : s.Untouched s') :
    s.Tried scope spec s'' := by
  obtain ⟨calls, full, htold, hstart, hfull⟩ := h
  rw [hq.withNext, hq.graph] at hfull
  exact ⟨calls, full, hq.then_told htold, hstart, hfull⟩

end Session

/-- A request that makes no node leaves the number of nodes as it is. -/
theorem Graph.size_after {g : Graph} {r : Request} (h : r.isMaking = false) :
    (g.after r).size = g.size := by
  unfold after
  split
  · cases r with
    | add behavior params react => exact nomatch h
    | stream source params => exact nomatch h
    | _ => simp [carried, size, linked, adjusted]
  · obtain ⟨parent, children, he⟩ := g.refused_eq_linked r
    rw [he, size_linked]

theorem Graph.size_foldl_after {calls : List Request} (h : ∀ r ∈ calls, r.isMaking = false)
    (g : Graph) : (calls.foldl after g).size = g.size := by
  induction calls generalizing g with
  | nil => rfl
  | cons r rest ih =>
    rw [List.foldl_cons, ih (fun q hq => h q (List.mem_cons_of_mem _ hq)),
      size_after (h r List.mem_cons_self)]

namespace Compile

variable {scope : ScopeId} {s : Session}

/-! ## Registering a node -/

/-- The requests for initial data are made, whether they are carried out or refused. -/
theorem ends_loads (spec : OperatorSpec) (handle : Handle) :
    Ends (if spec.isCollect then forM spec.value (load handle) else pure ()) s
      (fun _ s' => ∃ loads, spec.Loads handle loads ∧ s.Told loads s' ∧ s'.scopes = s.scopes)
      fun _ s' => ∃ loads, spec.Loads handle loads ∧ s.Told loads s' ∧ s'.scopes = s.scopes := by
  cases hc : spec.isCollect with
  | false => exact ⟨[], by simp [OperatorSpec.Loads, hc], .refl s, rfl⟩
  | true =>
    cases hv : spec.value with
    | none => exact ⟨[], by simp [OperatorSpec.Loads, hc, hv], .refl s, rfl⟩
    | some v =>
      have hloads : spec.Loads handle [loadRequest handle v] := by
        simpa [OperatorSpec.Loads, hc, hv] using loadRequest_loads handle v
      show Ends (discard (send (loadRequest handle v))) s _ _
      rw [ends_discard, ends_send]
      exact ⟨fun _ => ⟨_, hloads, s.told_sent _, rfl⟩, fun _ _ => ⟨_, hloads, s.told_sent _, rfl⟩⟩

/-- A node is linked by both requests, or the first is refused and is the last that is made. -/
theorem ends_links (spec : OperatorSpec) (handle : Handle) :
    Ends (forM spec.parent fun parent => attach scope spec.id parent handle) s
      (fun _ s' => (spec.parent.bind (s.scopes.node? scope)).isSome = spec.parent.isSome ∧
        s.Told (linkRequests handle (spec.parent.bind (s.scopes.node? scope))) s' ∧
        s'.scopes = s.scopes)
      fun _ s' => ∃ calls, s.Told calls s' ∧
        calls <+: linkRequests handle (spec.parent.bind (s.scopes.node? scope)) := by
  cases spec.parent with
  | none => exact ⟨rfl, .refl s, rfl⟩
  | some parent =>
    show Ends (attach scope spec.id parent handle) s _ _
    rw [ends_attach, Option.bind_some]
    cases s.scopes.node? scope parent with
    | none => exact ⟨[], .refl s, List.nil_prefix⟩
    | some p =>
      cases hr : s.graph.refusal? (.connect p [handle]) with
      | none =>
        have hboth := (s.told_sent (.connect p [handle])).trans
          ((s.sent (.connect p [handle])).told_sent (.addTarget p handle))
        simp only [Session.attached, hr]
        exact ⟨rfl, hboth, rfl⟩
      | some e =>
        simp only [Session.attached, hr]
        exact ⟨[.connect p [handle]], s.told_sent _, [.addTarget p handle], rfl⟩

/-- Recording the node of an entry. -/
theorem ends_setNode {id : EntryId} {handle : Handle} {done : Unit → Session → Prop}
    {failed : CompileError → Session → Prop} :
    Ends (write (·.setNode scope id handle)) s done failed ↔
      (scope < s.scopes.size → done () (s.edited scope ((Slot.node id).put handle))) ∧
        (s.scopes.size ≤ scope → failed (.scopeNotFound scope) s) := ends_modify

/-- The nodes that are seen once an entry has been recorded. -/
theorem node?_recorded (id : EntryId) (handle : Handle) (known : scope < s.scopes.size) :
    (s.edited scope ((Slot.node id).put handle)).scopes.node? scope =
      Function.update (s.scopes.node? scope) id (some handle) := by
  funext other
  by_cases h : other = id
  · subst h
    obtain ⟨sc, hsc⟩ : ∃ sc, s.scopes.scope? scope = some sc := ⟨_, List.getElem?_eq_getElem known⟩
    have hedited : (s.edited scope ((Slot.node other).put handle)).scopes.scope? scope =
        some ((Slot.node other).put handle sc) := by simp [Session.scope?_edited, hsc]
    -- The scope finds the node in its own table.
    rw [ScopeTree.node?, ScopeTree.lookup_of_some hedited, Function.update_self]
    simp [Slot.put, Table.get?_insert]
  · rw [Function.update_of_ne h]
    unfold ScopeTree.node?
    refine Session.lookup_edited (f := (Slot.node id).put handle) scope (fun _ => rfl) ?_ scope
    exact fun sc => (Table.get?_insert ..).trans (if_neg fun he => h he.symm)

/-- Nothing but the link is asked for once the initial data is there. -/
theorem ends_linked (spec : OperatorSpec) (handle : Handle) :
    let parent? := spec.parent.bind (s.scopes.node? scope)
    Ends ((if spec.root then write (·.setRoot scope handle) else pure ()) >>= fun _ =>
        (forM spec.parent fun parent => attach scope spec.id parent handle) >>= fun _ =>
          publish scope spec handle) s
      (fun _ s' => parent?.isSome = spec.parent.isSome ∧
        s'.scopes.node? scope = s.scopes.node? scope ∧ s.Told (linkRequests handle parent?) s')
      fun _ s' => ∃ calls, s.Told calls s' ∧ calls <+: linkRequests handle parent? := by
  intro parent?
  have hroot : Quiet (if spec.root then write (·.setRoot scope handle) else pure ()) := by
    split
    · exact quiet_put .root handle (by simp)
    · exact quiet_pure ()
  refine ends_bind_quiet hroot (fun _ s₁ h₁ => ?_) fun _ s₁ h₁ => ⟨[], h₁.told, List.nil_prefix⟩
  have hnodes : s₁.scopes.node? scope = s.scopes.node? scope := funext (h₁.nodes scope)
  have hlinks := @ends_links scope s₁ spec handle
  rw [hnodes] at hlinks
  rw [ends_bind]
  refine hlinks.mono ?_ ?_
  · rintro ⟨⟩ s₂ ⟨hsome, htold, hscopes⟩
    have hdone : s.Told (linkRequests handle parent?) s₂ := h₁.then_told htold
    refine (quiet_publish spec handle s₂).mono (fun _ s₃ h₃ => ?_) fun _ s₃ h₃ => ?_
    · refine ⟨hsome, funext fun id => ?_, hdone.quiet h₃⟩
      rw [h₃.nodes, hscopes, hnodes]
    · exact ⟨_, hdone.quiet h₃, List.prefix_rfl⟩
  · rintro - s₂ ⟨calls, htold, hstart⟩
    exact ⟨calls, h₁.then_told htold, hstart⟩

/-- Registering a node asks for its initial data and then for its link to the parent, which may be
the node itself. -/
theorem ends_register (spec : OperatorSpec) (handle : Handle) :
    let seen := Function.update (s.scopes.node? scope) spec.id (some handle)
    Ends (register scope spec handle) s
      (fun _ s' => (spec.parent.bind seen).isSome = spec.parent.isSome ∧
        s'.scopes.node? scope = seen ∧ ∃ loads, spec.Loads handle loads ∧
          s.Told (loads ++ linkRequests handle (spec.parent.bind seen)) s')
      fun _ s' => ∃ calls loads, spec.Loads handle loads ∧ s.Told calls s' ∧
        calls <+: loads ++ linkRequests handle (spec.parent.bind seen) := by
  intro seen
  obtain ⟨anyLoads, hany⟩ := spec.exists_loads handle
  rw [register_eq, ends_bind, ends_setNode]
  refine ⟨fun known => ?_, fun _ => ⟨[], anyLoads, hany, .refl s, List.nil_prefix⟩⟩
  -- The entry has been recorded, so from here on the node is seen.
  have hrecord : s.Told [] (s.edited scope ((Slot.node spec.id).put handle)) :=
    ⟨(List.append_nil _).symm, rfl⟩
  have hseen := node?_recorded spec.id handle known
  rw [ends_bind]
  refine (ends_loads spec handle).mono ?_ ?_
  · rintro ⟨⟩ s₁ ⟨loads, hloads, htold, hscopes⟩
    have hloaded : s.Told loads s₁ := hrecord.trans htold
    have hlinked := @ends_linked scope s₁ spec handle
    rw [hscopes, hseen] at hlinked
    refine hlinked.mono ?_ ?_
    · rintro ⟨⟩ s₂ ⟨hsome, hnodes, hlinks⟩
      exact ⟨hsome, hnodes, loads, hloads, hloaded.trans hlinks⟩
    · rintro - s₂ ⟨calls, hlinks, hstart⟩
      exact ⟨loads ++ calls, loads, hloads, hloaded.trans hlinks,
        (List.prefix_append_right_inj loads).mpr hstart⟩
  · rintro - s₁ ⟨loads, hloads, htold, -⟩
    exact ⟨loads, loads, hloads, hrecord.trans htold, List.prefix_append _ _⟩

/-! ## Operators -/

/-- Once it is known what a node does, it is made, and then it is registered. -/
theorem ends_made (spec : OperatorSpec) (behavior : Behavior) (params : Parameters) :
    Ends (send (.add behavior params spec.react) >>= fun h =>
        register scope spec h >>= fun _ => pure h) s
      (fun _ s' => s.Made scope spec s') fun _ s' => s.Tried scope spec s' := by
  have hadd := s.told_sent (.add behavior params spec.react)
  rw [ends_bind, ends_send]
  refine ⟨fun hok => ?_, fun e _ => ?_⟩
  · have hsize : (s.sent (.add behavior params spec.react)).graph.size = s.graph.size + 1 := by
      show (s.graph.after _).size = s.graph.size + 1
      rw [Graph.after, hok]
      exact Graph.size_grown _ _ _
    show Ends (register scope spec s.graph.size >>= fun _ => pure s.graph.size) _ _ _
    rw [ends_bind]
    refine (ends_register spec s.graph.size).mono ?_ ?_
    · rintro ⟨⟩ s₁ ⟨hlinked, hseen, loads, hloads, htold⟩
      refine ⟨?_, hseen, hlinked, _, hadd.trans htold, hloads.series behavior params _⟩
      rw [htold.graph, Graph.size_foldl_after (isMaking_of_mem hloads), hsize]
    · rintro - s₁ ⟨calls, loads, hloads, htold, hstart⟩
      exact ⟨_, _, hadd.trans htold, List.cons_prefix_cons.mpr ⟨rfl, hstart⟩,
        hloads.series behavior params _⟩
  · -- The node is refused, and that is the only request.
    obtain ⟨loads, hloads⟩ := spec.exists_loads s.graph.size
    exact ⟨_, _, hadd, List.cons_prefix_cons.mpr ⟨rfl, List.nil_prefix⟩,
      hloads.series behavior params _⟩

/-- An operator asks for nothing while its parameters are resolved, and then for its node and for
what belongs to it. -/
theorem ends_operator (spec : OperatorSpec) :
    Ends (operator scope spec) s (fun _ s' => s.Made scope spec s')
      fun _ s' => s.Tried scope spec s' := by
  unfold operator
  refine ends_bind_quiet (quiet_resolveValue spec) ?_ fun _ s' h => h.tried
  rintro ⟨params, initial⟩ s₁ h₁
  refine ends_bind_quiet (quiet_resolveInto params _) ?_ fun _ s' h => (h₁.trans h).tried
  intro params s₂ h₂
  refine ends_bind_quiet (quiet_behavior spec params initial) ?_ fun _ s' h =>
    (h₁.trans (h₂.trans h)).tried
  rintro ⟨behavior, params⟩ s₃ h₃
  -- The session is still untouched, so the node is the next one of the session at the start.
  have h : s.Untouched s₃ := h₁.trans (h₂.trans h₃)
  exact (ends_made spec behavior params).mono (fun _ _ hmade => hmade.of_untouched h)
    fun _ _ htried => htried.of_untouched h

/-! ## Whole series -/

/-- The step makes requests: such a series if it succeeds, and if it fails, the first few of a
series of the other kind. -/
def Makes {α : Type} (m : Compile α) (s : Session) (whole other : List Request → Prop) : Prop :=
  Ends m s (fun _ s' => ∃ calls, s.Told calls s' ∧ whole calls)
    fun _ s' => ∃ calls full, s.Told calls s' ∧ calls <+: full ∧ other full

variable {α β : Type} {whole whole' other other' : List Request → Prop}

theorem Makes.mono {m : Compile α} {p p' q q' : List Request → Prop} (h : Makes m s p q)
    (hp : ∀ calls, p calls → p' calls) (hq : ∀ calls, q calls → q' calls) : Makes m s p' q' :=
  Ends.mono h (fun _ _ ⟨calls, htold, hcalls⟩ => ⟨calls, htold, hp calls hcalls⟩)
    fun _ _ ⟨calls, full, htold, hstart, hfull⟩ => ⟨calls, full, htold, hstart, hq full hfull⟩

/-- What comes after a first series is a series, too. -/
theorem makes_bind {m : Compile α} {f : α → Compile β} (hm : Makes m s whole other)
    (hw : ∀ calls, whole calls → other calls) (hf : ∀ a s', Makes (f a) s' whole' other')
    (hexists : ∃ calls, other' calls) :
    Makes (m >>= f) s (fun calls => ∃ xs ys, calls = xs ++ ys ∧ whole xs ∧ whole' ys)
      fun calls => ∃ xs ys, calls = xs ++ ys ∧ other xs ∧ other' ys := by
  unfold Makes
  rw [ends_bind]
  -- If the second step fails, the first has made all of its series, and if the first fails, the
  -- second makes none of its own.
  refine Ends.mono hm ?_ ?_
  · rintro a s₁ ⟨xs, hxs, hwhole⟩
    refine Ends.mono (hf a s₁) ?_ ?_
    · rintro b s₂ ⟨ys, hys, hwhole'⟩
      exact ⟨xs ++ ys, hxs.trans hys, xs, ys, rfl, hwhole, hwhole'⟩
    · rintro e s₂ ⟨ys, full, hys, hstart, hfull⟩
      exact ⟨xs ++ ys, xs ++ full, hxs.trans hys, (List.prefix_append_right_inj xs).mpr hstart,
        xs, full, rfl, hw xs hwhole, hfull⟩
  · rintro e s₁ ⟨xs, full, hxs, hstart, hfull⟩
    obtain ⟨rest, hrest⟩ := hexists
    exact ⟨xs, full ++ rest, hxs, hstart.trans (List.prefix_append _ _), full, rest, rfl, hfull,
      hrest⟩

/-- A step that asks for one thing asks for it once if it succeeds, and at most once if not. -/
abbrev Asks {α : Type} (m : Compile α) (ask : Request → Prop) : Prop :=
  ∀ s, Makes m s (fun calls => ∃ r, ask r ∧ calls = [r]) fun calls => ∃ r, ask r ∧ calls = [r]

/-- What is prepared quietly does not show. -/
theorem asks_bind {m : Compile α} {f : α → Compile β} {ask : Request → Prop} (hm : Quiet m)
    (hf : ∀ a, Asks (f a) ask) (hexists : ∃ r, ask r) : Asks (m >>= f) ask := by
  obtain ⟨r, hr⟩ := hexists
  intro s
  refine ends_bind_quiet hm (fun a s' h => ?_) fun _ s' h =>
    ⟨[], [r], h.told, List.nil_prefix, r, hr, rfl⟩
  refine Ends.mono (hf a s') ?_ ?_
  · rintro b s'' ⟨calls, htold, hcalls⟩
    exact ⟨calls, h.then_told htold, hcalls⟩
  · rintro e s'' ⟨calls, full, htold, hstart, hfull⟩
    exact ⟨calls, full, h.then_told htold, hstart, hfull⟩

/-- The same for a step that may be missing. -/
theorem asks_bind_mapM {γ δ : Type} {x : Option γ} {g : γ → Compile δ} {f : Option δ → Compile β}
    {ask : Request → Prop} (hg : ∀ a, Quiet (g a))
    (hf : ∀ y : Option δ, y.isSome = x.isSome → Asks (f y) ask) (hexists : ∃ r, ask r) :
    Asks (x.mapM g >>= f) ask := by
  cases x with
  | none => exact hf none rfl
  | some a =>
    have hsome : Asks (g a >>= fun b => f (some b)) ask :=
      asks_bind (hg a) (fun b => hf (some b) rfl) hexists
    show Asks (some <$> g a >>= f) ask
    rwa [bind_map_left]

theorem asks_throw {e : CompileError} {ask : Request → Prop} (hexists : ∃ r, ask r) :
    Asks (throw e : Compile α) ask := by
  obtain ⟨r, hr⟩ := hexists
  exact fun s => ⟨[], [r], .refl s, List.nil_prefix, r, hr, rfl⟩

theorem asks_send {r : Request} {ask : Request → Prop} (hr : ask r) : Asks (send r) ask := by
  intro s
  unfold Makes
  rw [ends_send]
  exact ⟨fun _ => ⟨[r], s.told_sent r, r, hr, rfl⟩,
    fun _ _ => ⟨[r], [r], s.told_sent r, List.prefix_rfl, r, hr, rfl⟩⟩

/-- What comes after the request may record nodes, but it asks for nothing. -/
theorem asks_then {m : Compile α} {f : α → Compile β} {ask : Request → Prop} (hm : Asks m ask)
    (hf : ∀ a s, Ends (f a) s (fun _ s' => s.Told [] s') fun _ s' => s.Told [] s') :
    Asks (m >>= f) ask := by
  intro s
  unfold Makes
  rw [ends_bind]
  refine Ends.mono (hm s) ?_ fun _ _ h => h
  rintro a s₁ ⟨calls, htold, hcalls⟩
  refine (hf a s₁).mono (fun b s₂ hidle => ?_) fun e s₂ hidle => ?_
  all_goals have hboth := htold.trans hidle
  all_goals rw [List.append_nil] at hboth
  · exact ⟨calls, hboth, hcalls⟩
  · exact ⟨calls, calls, hboth, List.prefix_rfl, hcalls⟩

/-- A series of steps, each of which asks for one thing. -/
theorem makes_forM {γ : Type} {xs : List γ} {step : γ → Compile Unit}
    {asks : γ → Request → Prop} (hstep : ∀ x, Asks (step x) (asks x))
    (hexists : ∀ x, ∃ r, asks x r) (s : Session) :
    Makes (forM xs step) s (List.Forall₂ asks xs) (List.Forall₂ asks xs) := by
  induction xs generalizing s with
  | nil => exact ⟨[], .refl s, .nil⟩
  | cons x rest ih =>
    have hcons : ∀ calls, (∃ ys zs, calls = ys ++ zs ∧ (∃ r, asks x r ∧ ys = [r]) ∧
        List.Forall₂ asks rest zs) → List.Forall₂ asks (x :: rest) calls := by
      rintro _ ⟨_, zs, rfl, ⟨r, hr, rfl⟩, hzs⟩
      exact .cons hr hzs
    rw [List.forM_cons]
    have hseries :=
      makes_bind (hstep x s) (fun _ h => h) (fun _ => ih) (exists_forall₂ hexists rest)
    exact hseries.mono hcons hcons

/-- Naming the entry that fails, and leaving the answer, changes nothing. -/
theorem asks_within {m : Compile α} {ask : Request → Prop} (id : EntryId) (h : Asks m ask) :
    Asks (within id m) ask := by
  intro s
  unfold Makes
  rw [ends_within]
  exact h s

theorem asks_discard {m : Compile α} {ask : Request → Prop} (h : Asks m ask) :
    Asks (discard m) ask := by
  intro s
  unfold Makes
  rw [ends_discard]
  exact h s

/-! ## Specifications -/

/-- Recording a node of whatever entry makes no request. -/
theorem ends_setNode_told (id : EntryId) (handle : Handle) :
    Ends (write (·.setNode scope id handle)) s (fun _ s' => s.Told [] s')
      fun _ s' => s.Told [] s' :=
  ends_setNode.mpr ⟨fun _ => ⟨(List.append_nil _).symm, rfl⟩, fun _ => .refl s⟩

/-- The operators are made in turn, and each of them sees those before it. -/
theorem makes_operators (scope : ScopeId) (specs : List OperatorSpec) (s : Session) :
    Makes (forM specs fun o => within o.id (discard (operator scope o))) s
      (OperatorSeries (s.scopes.node? scope) s.graph.size specs)
      (OperatorSeries (filled (s.scopes.node? scope)) s.graph.size specs) := by
  induction specs generalizing s with
  | nil => exact ⟨[], .refl s, .nil⟩
  | cons spec rest ih =>
    unfold Makes
    rw [List.forM_cons, ends_bind, ends_within, ends_discard]
    refine (ends_operator spec).mono ?_ ?_
    · rintro h s₁ ⟨hsize, hseen, linked, own, htold, first⟩
      have hrest := ih s₁
      rw [hseen, hsize] at hrest
      refine Ends.mono hrest ?_ ?_
      · rintro ⟨⟩ s₂ ⟨others, hothers, next⟩
        exact ⟨own ++ others, htold.trans hothers, .cons linked first next⟩
      · rintro e s₂ ⟨others, full, hothers, hstart, next⟩
        rw [← OperatorSeries.bind_of_linked linked] at first
        exact ⟨own ++ others, own ++ full, htold.trans hothers,
          (List.prefix_append_right_inj own).mpr hstart, .cons_filled first next⟩
    · rintro e s₁ ⟨own, full, htold, hstart, first⟩
      -- The rest of the series is anything that could follow.
      obtain ⟨full', hfull, first'⟩ := first.filled
      obtain ⟨others, next⟩ := OperatorSeries.exists_filled
        (Function.update (s.scopes.node? scope) spec.id (some s.graph.size)) (s.graph.size + 1) rest
      exact ⟨own, full' ++ others, htold,
        (hstart.trans hfull).trans (List.prefix_append full' others), .cons_filled first' next⟩

theorem asks_stream (spec : StreamSpec) : Asks (stream scope spec) spec.Asks := by
  unfold stream
  refine asks_bind_mapM (fun id => quiet_node id) (fun parent hparent => ?_) spec.exists_asks
  -- What is left to do once the filter is there.
  have hsend : ∀ (filter : Option Accessor) (params : Parameters),
      filter.isSome = spec.filter.isSome →
      Asks (do
        let handle ← send (.stream ⟨spec.source, spec.kind, parent, filter⟩ params)
        write (·.setNode scope spec.id handle)
        return handle) spec.Asks := by
    intro filter params hfilter
    refine asks_then (asks_send ⟨parent, filter, params, hparent, hfilter, rfl⟩) fun handle s => ?_
    rw [ends_bind]
    exact ends_setNode_told spec.id handle
  cases hf : spec.filter with
  | none => exact hsend none .empty (by rw [hf]; rfl)
  | some v =>
    exact asks_bind (quiet_resolveFunction .filter .empty v)
      (fun r => hsend (some r.1) r.2 (by rw [hf]; rfl)) spec.exists_asks

theorem asks_listener (spec : UpdateSpec) : Asks (listener scope spec) spec.Asks := by
  unfold listener
  cases spec.sourceId? with
  | none => exact asks_throw spec.exists_asks
  | some sourceId =>
    refine asks_bind (quiet_node sourceId) (fun source => ?_) spec.exists_asks
    refine asks_bind (quiet_node spec.target) (fun target => ?_) spec.exists_asks
    -- What is left to do once the update is there.
    have hsend : ∀ (update : Option ListenerUpdate) (params : Parameters),
        update.isSome = spec.update.isSome → Asks (do
          let params ← resolveInto scope params ((spec.params.map Table.entries).getD [])
          discard <| send (.listen ⟨source, target, update, params, spec.options⟩))
          spec.Asks := by
      intro update params hupdate
      refine asks_bind (quiet_resolveInto params _) (fun params => ?_) spec.exists_asks
      exact asks_discard (asks_send ⟨source, target, update, params, hupdate, rfl⟩)
    cases hu : spec.update with
    | none => exact hsend none .empty (by rw [hu]; rfl)
    | some v =>
      exact asks_bind (quiet_listenerUpdate v)
        (fun r => hsend (some r.1) r.2 (by rw [hu]; rfl)) spec.exists_asks

theorem makes_streams (scope : ScopeId) (specs : List StreamSpec) (s : Session) :
    Makes (forM specs fun t => within t.id (discard (stream scope t))) s
      (List.Forall₂ StreamSpec.Asks specs) (List.Forall₂ StreamSpec.Asks specs) :=
  makes_forM (fun t => asks_within t.id (asks_discard (asks_stream t))) StreamSpec.exists_asks s

theorem makes_listeners (scope : ScopeId) (specs : List UpdateSpec) (s : Session) :
    Makes (forM specs fun u => within u.target (listener scope u)) s
      (List.Forall₂ UpdateSpec.Asks specs) (List.Forall₂ UpdateSpec.Asks specs) :=
  makes_forM (fun u => asks_within u.target (asks_listener u)) UpdateSpec.exists_asks s

theorem makes_specification (spec : Spec) :
    Makes (specification scope spec) s (spec.Series (s.scopes.node? scope) s.graph.size)
      (spec.Series (filled (s.scopes.node? scope)) s.graph.size) := by
  have hexists := exists_forall₂ UpdateSpec.exists_asks spec.updates
  have hafter := fun s' => makes_bind (makes_streams scope spec.streams s') (fun _ h => h)
    (fun _ => makes_listeners scope spec.updates) hexists
  have hall := makes_bind (makes_operators scope spec.operators s) (fun _ h => h.filled)
    (fun _ => hafter) ?_
  · refine Makes.mono hall ?_ ?_
    all_goals
      rintro _ ⟨operators, _, rfl, hoperators, streams, listeners, rfl, hs, hl⟩
      exact ⟨operators, streams, listeners, (List.append_assoc ..).symm, hoperators, hs, hl⟩
  · obtain ⟨streams, hs⟩ := exists_forall₂ StreamSpec.exists_asks spec.streams
    obtain ⟨listeners, hl⟩ := hexists
    exact ⟨streams ++ listeners, streams, listeners, rfl, hs, hl⟩

end Compile

/-! ## All compilations -/

/-- Compiling a specification that succeeds makes exactly the requests of a series: for each
operator in the order of declaration its node, its initial data and its link to the parent, then the
streams, then the listeners. If it fails, the requests it has made, the refused one included, are
the first few of a series, where parents that were missing are taken to be seen. Resolving makes
no requests. -/
theorem requests_in_order (s : Session) (scope : ScopeId) (spec : Spec) :
    Compile.Ends (Compile.specification scope spec) s
        (fun _ s' => ∃ calls, s.Told calls s' ∧
          spec.Series (s.scopes.node? scope) s.graph.size calls)
        (fun _ s' => ∃ calls full seen, s.Told calls s' ∧ calls <+: full ∧
          (∀ id h, s.scopes.node? scope id = some h → seen id = some h) ∧
            spec.Series seen s.graph.size full) ∧
      (∀ v, Compile.Quiet (Compile.resolve scope v)) ∧
      (∀ r, Compile.Quiet (Compile.resolveReference scope r)) ∧
      ∀ params members, Compile.Quiet (Compile.resolveInto scope params members) := by
  refine ⟨?_, Compile.quiet_resolve, Compile.quiet_resolveReference, Compile.quiet_resolveInto⟩
  refine Compile.Ends.mono (Compile.makes_specification spec) (fun _ _ h => h) ?_
  rintro e s' ⟨calls, full, htold, hstart, hfull⟩
  exact ⟨calls, full, _, htold, hstart, fun _ _ => filled_of_some, hfull⟩

/-- An operator with a record, one below it, a stream, and a listener from the stream to the second
operator. -/
def clickedMark : Spec where
  operators := [
    { OperatorSpec.named "data" with kind := collectKind, value := some (.array [.bool true]) },
    { OperatorSpec.named "mark" with parent := some ⟨"data"⟩ }]
  streams := [⟨⟨"clicks"⟩, some "view", some "click", none, none⟩]
  updates := [⟨.string "clicks", ⟨"mark"⟩, none, none, none⟩]

/-- The requests that compiling a specification at the root of a new session makes on success. -/
def Spec.requests? (spec : Spec) : Option (List Request) :=
  match Compile.specification ScopeTree.rootId spec (Session.new none .empty 64) with
  | .ok _ s' => some s'.journal
  | .error _ _ => none

/-- The requests for it, oldest first. -/
def clickedRequests : List Request := [
  .add (.plain none none) .empty true, .pulse 0 ⟨[.bool true], []⟩,
  .add (.plain none none) .empty true, .connect 0 [1], .addTarget 0 1,
  .stream ⟨some "view", some "click", none, none⟩ .empty,
  .listen ⟨2, 1, none, .empty, none⟩]

/-- The specification is compiled with these requests, and they are a series for it. -/
theorem requests_in_order_clicked :
    clickedMark.requests? = some clickedRequests ∧
      clickedMark.Series ((ScopeTree.new none).node? ScopeTree.rootId) 0 clickedRequests := by
  have hrequests : clickedMark.requests? = some clickedRequests := by
    unfold Spec.requests?
    cbv
  refine ⟨hrequests, ?_⟩
  have hends := (requests_in_order (Session.new none .empty 64) ScopeTree.rootId clickedMark).1
  unfold Spec.requests? at hrequests
  cases hm : Compile.specification ScopeTree.rootId clickedMark (Session.new none .empty 64) with
  | error e s' =>
    rw [hm] at hrequests
    cases hrequests
  | ok _ s' =>
    obtain ⟨calls, htold, hseries⟩ := hends.ok hm
    rw [hm] at hrequests
    have hcalls : s'.journal = calls := htold.journal
    have hsame : s'.journal = clickedRequests := Option.some.inj hrequests
    rwa [← hsame, hcalls]

/-- A resource that cannot be fetched: the request that is refused is the last. -/
example :
    ((Operation.compile ⟨[{ OperatorSpec.named "data" with
        kind := collectKind, value := some (.object [("$request", .bool true)]) }, .named "mark"],
      [], []⟩).after (Session.new none .empty 64)).journal =
      [.add (.plain none none) .empty true, .fetch 0 (.bool true) none] := by
  cbv

end Dataflow
