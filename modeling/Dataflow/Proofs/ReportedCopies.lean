import Dataflow.CommandLine.Report
import Dataflow.Proofs.IsolatedInstances
import Dataflow.Proofs.NoDanglingHandles
import Dataflow.Proofs.SettledParameters
import Mathlib.Data.List.Forall2
import Mathlib.Data.List.Nodup

/-!
# The copies in a report

A report lists the copies that have been made of nested specifications. Two things in it are found
out in a roundabout way. The scope of a copy is taken to be the newest fork of the scope in which
the nested specification was met; it is, since compiling makes no scopes, and nothing but copying
does. And the nested specifications of an operator are looked for in its parameters and in the items
of arrays; there are no others, since resolved arrays do not nest.

`CommandLine.Builds` is a run of copies, `CommandLine.Asks` says which copies are asked for, and
`CommandLine.Lists` what a report shows of those that have been made. The main result,
`report_lists_copies`, is that the report lists exactly the copies that are asked for.
-/

namespace Dataflow

/-! ## What a copy leaves as it is -/

/-- Scopes and nodes are as they were, but for forks and targets, and for new ones. -/
structure Session.Preserves (s s' : Session) : Prop where
  scopes : ∀ id sc, s.scopes.scope? id = some sc →
    ∃ forks, s'.scopes.scope? id = some { sc with forks := forks }
  nodes : ∀ h n, s.graph.node? h = some n →
    ∃ targets, s'.graph.node? h = some { n with targets := targets }

/-- Copies can be made below the root. -/
structure Session.Ready (s : Session) : Prop where
  targets : s.graph.TargetsExist
  known : ScopeTree.rootId < s.scopes.size
  itemPath : s.scopes.itemPath ScopeTree.rootId = []

namespace Session

variable {s s' s'' : Session}

theorem Preserves.refl (s : Session) : s.Preserves s :=
  ⟨fun _ sc h => ⟨sc.forks, h⟩, fun _ n h => ⟨n.targets, h⟩⟩

theorem Preserves.trans (h : s.Preserves s') (h' : s'.Preserves s'') : s.Preserves s'' where
  scopes id sc hsc := by
    obtain ⟨forks, hbetween⟩ := h.scopes id sc hsc
    obtain ⟨forks', hafter⟩ := h'.scopes id _ hbetween
    exact ⟨forks', hafter⟩
  nodes handle n hn := by
    obtain ⟨targets, hbetween⟩ := h.nodes handle n hn
    obtain ⟨targets', hafter⟩ := h'.nodes handle _ hbetween
    exact ⟨targets', hafter⟩

theorem Preserves.itemPath (h : s.Preserves s') {id : ScopeId} (known : id < s.scopes.size) :
    s'.scopes.itemPath id = s.scopes.itemPath id := by
  obtain ⟨sc, hsc⟩ : ∃ sc, s.scopes.scope? id = some sc := ⟨_, List.getElem?_eq_getElem known⟩
  obtain ⟨forks, hsc'⟩ := h.scopes id sc hsc
  rw [ScopeTree.itemPath, ScopeTree.itemPath, hsc, hsc']
  rfl

theorem AddsCopy.preserves {parent : ScopeId} {index : Nat} (h : s.AddsCopy parent index s') :
    s.Preserves s' where
  scopes id sc hsc := by
    rw [h.scopes id sc hsc]
    split
    · exact ⟨_, rfl⟩
    · exact ⟨sc.forks, rfl⟩
  nodes handle n hn := by
    obtain ⟨targets, hn, -⟩ := h.nodes handle n hn
    exact ⟨_, hn⟩

/-- A search at the root looks at no other scope, so it finds what it found before. -/
theorem Preserves.node?_root (h : s.Preserves s') (known : ScopeTree.rootId < s.scopes.size)
    (id : EntryId) :
    s'.scopes.node? ScopeTree.rootId id = s.scopes.node? ScopeTree.rootId id := by
  -- A parent is searched only if its number is smaller, and there is no smaller one.
  have hroot : ∀ {t : ScopeTree} {sc : Scope}, t.scope? ScopeTree.rootId = some sc →
      t.node? ScopeTree.rootId id = sc.nodes.get? id := by
    intro t sc hsc
    rw [ScopeTree.node?, ScopeTree.lookup_of_some hsc]
    cases sc.parent with
    | none => simp
    | some p => simp [ScopeTree.rootId]
  obtain ⟨sc, hsc⟩ : ∃ sc, s.scopes.scope? ScopeTree.rootId = some sc :=
    ⟨_, List.getElem?_eq_getElem known⟩
  obtain ⟨forks, hsc'⟩ := h.scopes _ sc hsc
  rw [hroot hsc, hroot hsc']

/-- The scope of a copy is the newest fork of the scope above it. -/
theorem AddsCopy.getLast?_forks {parent : ScopeId} {index : Nat}
    (h : s.AddsCopy parent index s') :
    (s'.scopes.forks parent).getLast? = some s.scopes.size := by
  obtain ⟨sc, hsc⟩ : ∃ sc, s.scopes.scope? parent = some sc :=
    ⟨_, List.getElem?_eq_getElem h.known⟩
  rw [ScopeTree.forks, h.scopes parent sc hsc, if_pos rfl]
  simp

end Session

/-! ## The session after compiling -/

/-- Compiling leaves all item paths as they are. -/
theorem Changes.itemPath {strict : Prop} {scope : ScopeId} {s s' : Session}
    (h : Changes strict scope s s') (id : ScopeId) :
    s'.scopes.itemPath id = s.scopes.itemPath id := by
  have hedited : ∀ (s : Session) {f : Scope → Scope}, (∀ sc, (f sc).itemPath = sc.itemPath) →
      (s.edited scope f).scopes.itemPath id = s.scopes.itemPath id := by
    intro s f hf
    rw [ScopeTree.itemPath, ScopeTree.itemPath, Session.scope?_edited]
    cases s.scopes.scope? id with
    | none => rfl
    | some sc =>
      simp only [Option.map_some, Option.getD_some]
      split
      · exact hf sc
      · rfl
  induction h with
  | refl => rfl
  | tail _ hc ih =>
    rw [← ih]
    cases hc with
    | count => rfl
    | share => exact hedited _ fun _ => rfl
    | record slot => exact hedited _ fun sc => by cases slot <;> rfl
    | request => rfl
    | attach parent child =>
      unfold Session.attached
      split <;> rfl

/-- A session right after a specification has been compiled at the root. -/
structure Session.Compiled (s : Session) : Prop extends s.Ready where
  closed : s.Closed
  settled : s.Settled ScopeTree.rootId

theorem Session.compiled_of_new {library : Option Library} {transforms : Registry}
    {depthLimit : Nat} {spec : Spec} {s : Session}
    (h : Compile.specification ScopeTree.rootId spec (.new library transforms depthLimit) =
      .ok () s) : s.Compiled := by
  have hnew := Session.closed_new library transforms depthLimit
  have hworks : Compile.Works True ScopeTree.rootId []
      (Compile.specification ScopeTree.rootId spec) fun _ => [] := Compile.works_specification spec
  obtain ⟨hchanges, -⟩ := (hworks _ fun _ => ⟨hnew, Session.Has.nil _⟩).ok h
  have hrun : (Session.new library transforms depthLimit).run [.compile spec] = s := by
    refine Operation.after_of_ends (P := fun t => t = s) ?_
    rw [Operation.step, Compile.Ends, h]
  have hstart : (Session.new library transforms depthLimit).Settled ScopeTree.rootId :=
    fun _ hd => absurd hd List.not_mem_nil
  refine ⟨⟨?_, ?_, hchanges.itemPath _⟩, hchanges.closed trivial hnew,
    (Compile.settles_specification spec _ hstart).ok h⟩
  · rw [← hrun]
    exact Session.targetsExist_run Graph.targetsExist_empty _
  · rw [hchanges.scopes_size]
    exact Nat.one_pos

namespace CommandLine

/-! ## What is asked for, and what is made -/

/-- One copy that is asked for: of a nested specification in a parameter of an operator. -/
structure Wanted where
  operator : String
  parameter : String
  subflow : Subflow
  index : Nat

/-- The copies asked for of one operator: of each nested specification that has been found in its
parameters, one for each index. -/
def Wanted.all (operator : String) (count : Nat) (found : List (List Nat × String × Subflow)) :
    List Wanted :=
  found.flatMap fun f => (List.range count).map (⟨operator, f.2.1, f.2.2, ·⟩)

/-- All copies that are asked for, where the nested specifications of an operator are all that occur
in the parameters of its node, in order. -/
inductive Asks (s : Session) : List (String × Nat) → List Wanted → Prop where
  | nil : Asks s [] []
  | cons {operator : String} {count : Nat} {rest : List (String × Nat)} {handle : Handle}
      {node : Node} {found : List (List Nat × String × Subflow)} {others : List Wanted}
      (named : s.scopes.node? ScopeTree.rootId ⟨operator⟩ = some handle)
      (exists_node : s.graph.node? handle = some node)
      (exhausts : node.params.Exhausts Parameter.subflow? found) (next : Asks s rest others) :
      Asks s ((operator, count) :: rest) (Wanted.all operator count found ++ others)

/-- The entry describes the copy as it is in the session: its scope is below the root, has the index
for its item path, and records the output for the first operator of the nested specification. -/
structure Instance.Describes (i : Instance) (w : Wanted) (s : Session) : Prop where
  operator : i.operator = w.operator
  parameter : i.parameter = w.parameter
  index : i.index = w.index
  itemPath : i.itemPath = [w.index]
  scope : ∃ sc first, s.scopes.scope? i.scope = some sc ∧
    sc.parent = some ScopeTree.rootId ∧ sc.itemPath = [w.index] ∧
    w.subflow.spec.output? = some first ∧ sc.nodes.get? first.id = some i.output

/-- The copies are made one after another. Each makes one scope, which is the scope in its entry,
and the output in its entry is the node that it gives. -/
inductive Builds : Session → List Wanted → List Instance → Session → Prop where
  | nil {s : Session} : Builds s [] [] s
  | cons {s s' s'' : Session} {w : Wanted} {i : Instance} {rest : List Wanted}
      {others : List Instance}
      (made : Compile.instantiate w.subflow w.index s = .ok i.output s')
      (created : i.scope = s.scopes.size ∧ s'.scopes.size = s.scopes.size + 1)
      (next : Builds s' rest others s'') : Builds s (w :: rest) (i :: others) s''

variable {s s' s'' : Session} {w : Wanted} {i : Instance} {xs ys : List Wanted}
  {made others : List Instance}

theorem Instance.Describes.mono (h : i.Describes w s) (hs : s.Preserves s') : i.Describes w s' := by
  obtain ⟨sc, first, hsc, hparent, hpath, hfirst, hget⟩ := h.scope
  obtain ⟨forks, hsc'⟩ := hs.scopes _ sc hsc
  exact ⟨h.operator, h.parameter, h.index, h.itemPath,
    ⟨_, first, hsc', hparent, hpath, hfirst, hget⟩⟩

theorem Builds.append (h : Builds s xs made s') (h' : Builds s' ys others s'') :
    Builds s (xs ++ ys) (made ++ others) s'' := by
  induction h with
  | nil => exact h'
  | cons first created _ ih => exact .cons first created (ih h')

/-- The scopes of copies are numbered one after another. -/
theorem Builds.scopes_eq (h : Builds s xs made s') :
    made.map Instance.scope = List.range' s.scopes.size made.length := by
  induction h with
  | nil => rfl
  | cons _ created _ ih =>
    rw [List.map_cons, ih, created.1, created.2, List.length_cons, List.range'_succ]

/-- Some copies have been made and reported, and others can be made. -/
structure Reported (s : Session) (wanted : List Wanted) (made : List Instance) (s' : Session) :
    Prop where
  builds : Builds s wanted made s'
  describes : List.Forall₂ (fun w i => i.Describes w s') wanted made
  ready : s'.Ready
  kept : s.Preserves s'

theorem reported_nil (ready : s.Ready) : Reported s [] [] s :=
  ⟨.nil, .nil, ready, .refl s⟩

/-- The scopes in what has been reported exist. -/
theorem Reported.scope_lt (h : Reported s xs made s') (hi : i ∈ made) :
    i.scope < s'.scopes.size := by
  obtain ⟨k, hk, rfl⟩ := List.getElem_of_mem hi
  have hlength := h.describes.length_eq
  obtain ⟨sc, _, hsc, -⟩ := (h.describes.get (hlength ▸ hk) hk).scope
  exact (List.getElem?_eq_some_iff.mp hsc).1

theorem Reported.append (h : Reported s xs made s') (h' : Reported s' ys others s'') :
    Reported s (xs ++ ys) (made ++ others) s'' where
  builds := h.builds.append h'.builds
  describes := by
    have hfirst := h.describes.imp fun _ _ hd => hd.mono h'.kept
    exact List.rel_append hfirst h'.describes
  ready := h'.ready
  kept := h.kept.trans h'.kept

/-! ## Steps on the way to a report -/

namespace Reporting

variable {α β : Type}

/-- Two steps in sequence succeed if both do. -/
theorem bind_ok {m : Reporting α} {f : α → Reporting β} {b : β}
    (h : (m >>= f) s = .ok b s'') : ∃ a s', m s = .ok a s' ∧ f a s' = .ok b s'' := by
  rw [Graph.bind_run] at h
  cases hm : m s with
  | ok a s' =>
    rw [hm] at h
    exact ⟨a, s', rfl, h⟩
  | error e s' =>
    rw [hm] at h
    exact nomatch h

theorem pure_ok {a b : α} (h : (pure a : Reporting α) s = .ok b s') : a = b ∧ s = s' := by
  cases h
  exact ⟨rfl, rfl⟩

theorem ofCompile_ok {m : Compile α} {a : α} (h : ofCompile m s = .ok a s') : m s = .ok a s' := by
  unfold ofCompile EStateM.adaptExcept at h
  cases hm : m s with
  | ok b t =>
    rw [hm] at h
    cases h
    rfl
  | error e t =>
    rw [hm] at h
    exact nomatch h

variable {operator parameter : String} {subflow : Subflow} {index : Nat}

/-- A copy of a nested specification that was met at the root is made as it is reported. -/
theorem reported_copy (ready : s.Ready) (hroot : subflow.scope = ScopeTree.rootId)
    (h : copy operator parameter subflow index s = .ok i s') :
    Reported s [⟨operator, parameter, subflow, index⟩] [i] s' := by
  obtain ⟨output, s₁, hmake, h⟩ := bind_ok h
  obtain ⟨s₂, s₃, hget, h⟩ := bind_ok h
  cases hget
  obtain ⟨rfl, rfl⟩ := pure_ok h
  have hinstance := ofCompile_ok hmake
  have hend := Session.isolatedEnd_instantiate ready.targets subflow index
  rw [hinstance] at hend
  obtain ⟨hadds, -, first, sc, hfirst, hsc, hget⟩ := hend
  rw [hroot] at hadds
  -- The scope that the report takes for the copy's is the one that the copy has made.
  have hscope : (s₁.scopes.forks subflow.scope).getLast?.getD ScopeTree.rootId =
      s.scopes.size := by
    rw [hroot, hadds.getLast?_forks]
    rfl
  obtain ⟨sc', hsc', hparent, hpath, -⟩ := hadds.added
  obtain rfl := Option.some.inj (hsc.symm.trans hsc')
  rw [ready.itemPath, List.nil_append] at hpath
  have hitem : s₁.scopes.itemPath s.scopes.size = [index] := by
    rw [ScopeTree.itemPath, hsc]
    exact hpath
  simp only [hscope, hitem]
  refine ⟨.cons hinstance ⟨rfl, hadds.scopes_size⟩ .nil, .cons ?_ .nil, ⟨?_, ?_, ?_⟩,
    hadds.preserves⟩
  · exact ⟨rfl, rfl, rfl, rfl, sc, first, hsc, hparent, hpath, hfirst, hget⟩
  · rw [← Session.run_instantiate hinstance]
    exact Session.targetsExist_run ready.targets _
  · rw [hadds.scopes_size]
    exact Nat.succ_pos _
  · rw [hadds.preserves.itemPath ready.known]
    exact ready.itemPath

theorem reported_copies {count : Nat} (ready : s.Ready)
    (hroot : subflow.scope = ScopeTree.rootId)
    (h : copies operator parameter subflow index count s = .ok made s') :
    Reported s ((List.range' index count).map (⟨operator, parameter, subflow, ·⟩)) made s' := by
  induction count generalizing index s made with
  | zero =>
    obtain ⟨rfl, rfl⟩ := pure_ok h
    exact reported_nil ready
  | succ count ih =>
    obtain ⟨first, s₁, hfirst, h⟩ := bind_ok h
    obtain ⟨rest, s₂, hrest, h⟩ := bind_ok h
    obtain ⟨rfl, rfl⟩ := pure_ok h
    have hcopy := reported_copy ready hroot hfirst
    exact hcopy.append (ih hcopy.ready hrest)

/-- The copies of several nested specifications, all met at the root. -/
theorem reported_mapM {count : Nat} {subflows : List (String × Subflow)}
    {lists : List (List Instance)} (ready : s.Ready)
    (hroot : ∀ f ∈ subflows, f.2.scope = ScopeTree.rootId)
    (h : (subflows.mapM fun f => copies operator f.1 f.2 0 count) s = .ok lists s') :
    Reported s (subflows.flatMap fun f => (List.range count).map (⟨operator, f.1, f.2, ·⟩))
      lists.flatten s' := by
  induction subflows generalizing s lists with
  | nil =>
    obtain ⟨rfl, rfl⟩ := pure_ok h
    exact reported_nil ready
  | cons f rest ih =>
    rw [List.mapM_cons] at h
    obtain ⟨made, s₁, hmade, h⟩ := bind_ok h
    obtain ⟨others, s₂, hothers, h⟩ := bind_ok h
    obtain ⟨rfl, rfl⟩ := pure_ok h
    have hfirst := reported_copies ready (hroot f List.mem_cons_self) hmade
    rw [← List.range_eq_range'] at hfirst
    exact hfirst.append (ih hfirst.ready (fun g hg => hroot g (List.mem_cons_of_mem _ hg)) hothers)

/-- The nested specifications of an operator are those that occur in its parameters, as they are
right after the compilation. -/
theorem reported_instantiate {compiled : Session} (hc : compiled.Compiled)
    (hext : compiled.Preserves s) (ready : s.Ready) {count : Nat}
    (h : instantiate operator count s = .ok made s') :
    ∃ handle node found, compiled.scopes.node? ScopeTree.rootId ⟨operator⟩ = some handle ∧
      compiled.graph.node? handle = some node ∧
      node.params.Exhausts Parameter.subflow? found ∧
      Reported s (Wanted.all operator count found) made s' := by
  obtain ⟨t, t', hget, h⟩ := bind_ok h
  cases hget
  rw [hext.node?_root hc.known] at h
  cases hnamed : compiled.scopes.node? ScopeTree.rootId ⟨operator⟩ with
  | none =>
    rw [hnamed] at h
    exact nomatch h
  | some handle =>
    have hlt : handle < compiled.graph.size := hc.closed.node?_lt hnamed
    obtain ⟨node, hnode⟩ : ∃ node, compiled.graph.node? handle = some node :=
      ⟨_, List.getElem?_eq_getElem hlt⟩
    obtain ⟨targets, hnode'⟩ := hext.nodes handle node hnode
    have hsettled : Parameters.Settled ScopeTree.rootId node.params :=
      hc.settled node.declaration (List.mem_map_of_mem (List.mem_of_getElem? hnode))
    -- The copies made so far have left the parameters of the node as they were.
    refine ⟨handle, node, _, rfl, hnode, node.params.exhausts_occurrences fun _ => rfl, ?_⟩
    rw [hnamed] at h
    simp only [hnode', Option.map_some, Option.getD_some] at h
    split at h
    · exact nomatch h
    · obtain ⟨lists, s₁, hlists, h⟩ := bind_ok h
      obtain ⟨rfl, rfl⟩ := pure_ok h
      have hreported := reported_mapM ready (fun f hf => hsettled.scope_eq hf) hlists
      rw [hsettled.subflows_eq, List.flatMap_map] at hreported
      exact hreported

/-- The copies that a whole list of operators asks for. -/
theorem reported_instances {compiled : Session} (hc : compiled.Compiled)
    {pairs : List (String × Nat)} {lists : List (List Instance)} (hext : compiled.Preserves s)
    (ready : s.Ready)
    (h : (pairs.mapM fun p => instantiate p.1 p.2) s = .ok lists s') :
    ∃ wanted, Asks compiled pairs wanted ∧ Reported s wanted lists.flatten s' := by
  induction pairs generalizing s lists with
  | nil =>
    obtain ⟨rfl, rfl⟩ := pure_ok h
    exact ⟨[], .nil, reported_nil ready⟩
  | cons p rest ih =>
    rw [List.mapM_cons] at h
    obtain ⟨made, s₁, hmade, h⟩ := bind_ok h
    obtain ⟨others, s₂, hothers, h⟩ := bind_ok h
    obtain ⟨rfl, rfl⟩ := pure_ok h
    obtain ⟨handle, node, found, hnamed, hnode, hfound, hfirst⟩ :=
      reported_instantiate hc hext ready hmade
    obtain ⟨wanted, hwanted, hrest⟩ :=
      ih (hext.trans hfirst.kept) hfirst.ready hothers
    exact ⟨_, .cons hnamed hnode hfound hwanted, hfirst.append hrest⟩

end Reporting

/-! ## The report -/

/-- The entry of a copy in a report. -/
structure Instance.ShownAs (i : Instance) (entry : Json) : Prop where
  operator : entry.get? "operator" = some (.string i.operator)
  parameter : entry.get? "parameter" = some (.string i.parameter)
  index : entry.get? "index" = some (Json.ofNat i.index)
  scope : entry.get? "scope" = some (Json.ofNat i.scope)
  itemPath : entry.get? "item_path" = some (.array (i.itemPath.map Json.ofNat))
  output : entry.get? "output" = some (Json.ofNat i.output)

/-- The report has an entry for each of the copies, in order, and no others. It leaves the list out
if there are none. -/
structure Lists (report : Json) (made : List Instance) (entries : List Json) : Prop where
  shown : List.Forall₂ Instance.ShownAs made entries
  absent : entries = [] → report.get? "instances" = none
  present : entries ≠ [] → report.get? "instances" = some (.array entries)

theorem Instance.shownAs_toJson (i : Instance) : i.ShownAs i.toJson :=
  ⟨rfl, rfl, rfl, rfl, rfl, rfl⟩

theorem get?_instances_reportJson (s : Session) (made : List Instance) :
    (reportJson s made).get? "instances" = Json.nonempty (made.map Instance.toJson) := by
  rw [reportJson]
  cases Json.nonempty (made.map Instance.toJson) <;> rfl

theorem lists_reportJson (s : Session) (made : List Instance) :
    Lists (reportJson s made) made (made.map Instance.toJson) where
  shown := List.forall₂_map_right_iff.mpr (List.forall₂_same.mpr fun i _ => i.shownAs_toJson)
  absent hempty := by
    rw [get?_instances_reportJson, hempty]
    rfl
  present hsome := by
    rw [get?_instances_reportJson, Json.nonempty, if_neg (by simpa using hsome)]

theorem Lists.scopes_eq {report : Json} {entries : List Json} (h : Lists report made entries) :
    entries.map (·.get? "scope") = made.map fun i => some (Json.ofNat i.scope) := by
  obtain ⟨hshown, -, -⟩ := h
  induction hshown with
  | nil => rfl
  | cons hentry _ ih => rw [List.map_cons, List.map_cons, hentry.scope, ih]

/-- Copies that have scopes of their own show them, as far as these fit 64 bits. -/
theorem Lists.nodup_scopes {report : Json} {entries : List Json} (h : Lists report made entries)
    (hnodup : (made.map Instance.scope).Nodup) (hfits : ∀ i ∈ made, i.scope < UInt64.size) :
    (entries.map (·.get? "scope")).Nodup := by
  rw [h.scopes_eq]
  refine List.Nodup.map_on (fun i hi j hj heq => ?_) (List.Nodup.of_map _ hnodup)
  have hscope := Json.ofNat_inj (hfits i hi) (hfits j hj) (Option.some.inj heq)
  exact List.inj_on_of_nodup_map hnodup hi hj hscope

/-- A report that is given lists exactly the copies that are asked for, in order, and they have been
made one after another once the specification was compiled. Each has a scope of its own, which it
has made, and its entry shows it as it is in the end. -/
theorem report_lists_copies (options : Options) (spec : Spec) (report : Json)
    (h : options.reportOn spec = .ok report) :
    ∃ compiled wanted made final entries,
      Compile.specification ScopeTree.rootId spec options.session = .ok () compiled ∧
      Asks compiled options.instances wanted ∧ Builds compiled wanted made final ∧
      List.Forall₂ (fun w i => i.Describes w final) wanted made ∧
      (made.map Instance.scope).Nodup ∧ report = reportJson final made ∧
      Lists report made entries ∧
      (final.scopes.size ≤ UInt64.size → (entries.map (·.get? "scope")).Nodup) := by
  unfold Options.reportOn at h
  split at h
  · rename_i made final hrun
    obtain ⟨⟨⟩, compiled, hspec, hrun⟩ := Reporting.bind_ok hrun
    obtain ⟨lists, s, hlists, hrun⟩ := Reporting.bind_ok hrun
    obtain ⟨rfl, rfl⟩ := Reporting.pure_ok hrun
    have hcompile := Reporting.ofCompile_ok hspec
    have hc : compiled.Compiled := Session.compiled_of_new hcompile
    obtain ⟨wanted, hasks, hreported⟩ :=
      Reporting.reported_instances hc (.refl compiled) hc.toReady hlists
    obtain rfl := Except.ok.inj h
    have hnodup : (lists.flatten.map Instance.scope).Nodup := by
      rw [hreported.builds.scopes_eq]
      exact List.nodup_range'
    have hlists := lists_reportJson s lists.flatten
    refine ⟨compiled, wanted, _, s, _, hcompile, hasks, hreported.builds, hreported.describes,
      hnodup, rfl, hlists, fun hfits => hlists.nodup_scopes hnodup fun i hi => ?_⟩
    exact Nat.lt_of_lt_of_le (hreported.scope_lt hi) hfits
  · exact nomatch h

/-- A nested specification of one operator, as a value. -/
def nestedOperator (id : String) : Json :=
  .object [("$subflow", .object [("operators", .array [.object [("id", .string id)]])])]

/-- An operator with three nested specifications, two of them in an array, after another one. -/
def facets : Spec where
  operators := [.named "source", { OperatorSpec.named "facet" with
    params := some (Table.ofList [
      ("parts", .array [nestedOperator "a", .null, nestedOperator "b"]),
      ("whole", nestedOperator "c")]) }]
  streams := []
  updates := []

/-- Two copies of each of them. -/
def facetOptions : Options := ⟨"facets.json", [("facet", 2)], Session.standardLimit, true⟩

/-- The copies that a report lists, if it is given. -/
def Options.instances? (options : Options) (spec : Spec) : Option Json :=
  match options.reportOn spec with
  | .ok report => report.get? "instances"
  | .error _ => none

/-- The entry of a copy of a facet in a report. -/
def facetEntry (parameter : String) (index scope output : Fin 8) : Json :=
  let number (n : Fin 8) : Json := .number (.integer n.val (by omega))
  .object [("operator", .string "facet"), ("parameter", .string parameter),
    ("index", number index), ("scope", number scope), ("item_path", .array [number index]),
    ("output", number output)]

/-- The entries of the facets, in order. -/
def facetEntries : List Json := [
  facetEntry "parts" 0 1 2, facetEntry "parts" 1 2 3, facetEntry "parts" 0 3 4,
  facetEntry "parts" 1 4 5, facetEntry "whole" 0 5 6, facetEntry "whole" 1 6 7]

/-- The six copies of the facets are made and listed one after another. -/
theorem report_lists_copies_facets :
    ∃ report compiled wanted made final, facetOptions.reportOn facets = .ok report ∧
      report.get? "instances" = some (.array facetEntries) ∧
      Asks compiled [("facet", 2)] wanted ∧ Builds compiled wanted made final ∧
      List.Forall₂ Instance.ShownAs made facetEntries := by
  have hlisted : facetOptions.instances? facets = some (.array facetEntries) := by
    unfold Options.instances?
    cbv
  unfold Options.instances? at hlisted
  cases hreport : facetOptions.reportOn facets with
  | error e =>
    rw [hreport] at hlisted
    cases hlisted
  | ok report =>
    rw [hreport] at hlisted
    obtain ⟨compiled, wanted, made, final, entries, -, hasks, hbuilds, -, -, -, hlists, -⟩ :=
      report_lists_copies facetOptions facets report hreport
    have hentries : entries ≠ [] := by
      intro hempty
      cases (hlists.absent hempty).symm.trans hlisted
    obtain rfl : facetEntries = entries := by
      simpa using hlisted.symm.trans (hlists.present hentries)
    exact ⟨report, compiled, wanted, made, final, rfl, hlisted, hasks, hbuilds, hlists.shown⟩

end CommandLine

end Dataflow
