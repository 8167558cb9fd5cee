import Dataflow.Proofs.UnpublishedOperators

/-!
# What a scope records of its operators

`Session.Registered` says in full what a registration that succeeds changes: the slots of the
operator in the scope where it is registered, and nothing else (`registered_of_register`).

Over a run, the registrations that have succeeded are listed in order (`Session.registrations`).
What a scope has of a dataset is made of them alone: a role is filled by the last registration in
the scope that names it, whichever other roles that one names (`Session.Gains`). The main result is
`registrations_recorded`.
-/

namespace Dataflow

/-! ## One registration -/

/-- A scope before and after a node has been registered in it. -/
structure Scope.Registered (sc : Scope) (spec : OperatorSpec) (handle : Handle) (sc' : Scope) :
    Prop where
  nodes : ∀ id, sc'.nodes.get? id = if id = spec.id then some handle else sc.nodes.get? id
  root : sc'.root = if spec.root then some handle else sc.root
  signals : ∀ name, sc'.signals.get? name =
    if spec.signal = some name then some handle else sc.signals.get? name
  scales : ∀ name, sc'.scales.get? name =
    if spec.scale = some name then some handle else sc.scales.get? name
  roles : ∀ dataset name, (sc'.roles dataset).get? name =
    if spec.fills dataset name then some handle else (sc.roles dataset).get? name
  datasets : ∀ dataset, sc'.data.contains dataset = true ↔
    sc.data.contains dataset = true ∨ ∃ name, spec.fills dataset name = true
  frame : Slot.SameFrame sc sc'

/-- A node has been registered in a scope, and all other scopes are as they were. -/
structure Session.Registered (s : Session) (scope : ScopeId) (spec : OperatorSpec) (handle : Handle)
    (s' : Session) : Prop where
  size : s'.scopes.size = s.scopes.size
  others : ∀ id : ScopeId, id ≠ scope → s'.scopes.scope? id = s.scopes.scope? id
  own : ∃ sc sc', s.scopes.scope? scope = some sc ∧ s'.scopes.scope? scope = some sc' ∧
    sc.Registered spec handle sc'

/-- Each part of a scope is one of the slots, or is left by all of them. -/
theorem Scope.registered_putAll (sc : Scope) (spec : OperatorSpec) (handle : Handle) :
    sc.Registered spec handle (Slot.putAll handle spec.slots sc) where
  nodes := fun id => by
    simpa only [Slot.held, OperatorSpec.node_mem_slots] using
      Slot.held_putAll handle spec.slots sc (.node id)
  root := by
    simpa only [Slot.held, OperatorSpec.root_mem_slots] using
      Slot.held_putAll handle spec.slots sc .root
  signals := fun name => by
    simpa only [Slot.held, OperatorSpec.signal_mem_slots] using
      Slot.held_putAll handle spec.slots sc (.signal name)
  scales := fun name => by
    simpa only [Slot.held, OperatorSpec.scale_mem_slots] using
      Slot.held_putAll handle spec.slots sc (.scale name)
  roles := fun dataset name => by
    simpa only [Slot.held, OperatorSpec.role_mem_slots] using
      Slot.held_putAll handle spec.slots sc (.role dataset name)
  datasets := fun dataset => by
    simpa only [OperatorSpec.role_mem_slots] using
      Slot.contains_putAll handle spec.slots sc dataset
  frame := Slot.sameFrame_putAll handle spec.slots sc

theorem registered_of_register {s s' : Session} {scope : ScopeId} {spec : OperatorSpec}
    {handle : Handle} (h : Compile.register scope spec handle s = .ok () s') :
    s.Registered scope spec handle s' := by
  obtain ⟨known, hscopes⟩ := (Compile.ends_register_slots spec handle).ok h
  obtain ⟨sc, hsc⟩ : ∃ sc, s.scopes.scope? scope = some sc := ⟨_, List.getElem?_eq_getElem known⟩
  constructor
  · rw [hscopes, Session.scopes_size_edited]
  · intro id hid
    have hne : ¬ scope = id := fun h => hid h.symm
    rw [hscopes, Session.scope?_edited]
    simp [hne]
  · refine ⟨sc, Slot.putAll handle spec.slots sc, hsc, ?_, sc.registered_putAll spec handle⟩
    rw [hscopes, Session.scope?_edited, hsc]
    simp

/-! ## All registrations of a run -/

/-- A node that has been registered in a scope. -/
structure Registration where
  scope : ScopeId
  spec : OperatorSpec
  handle : Handle

/-- Operators that are compiled in turn are registered up to the first that fails. -/
def Compile.registrations (scope : ScopeId) : List OperatorSpec → Session → List Registration
  | [], _ => []
  | spec :: rest, s =>
    match operator scope spec s with
    | .ok handle s' => ⟨scope, spec, handle⟩ :: registrations scope rest s'
    | .error .. => []

/-- The registrations that an operation makes and that succeed, in order. -/
def Operation.registrations (s : Session) : Operation → List Registration
  | .compile spec => Compile.registrations ScopeTree.rootId spec.operators s
  | .compileIn scope spec => Compile.registrations scope spec.operators s
  | .operator scope spec => Compile.registrations scope [spec] s
  | .register scope spec handle =>
    match Compile.register scope spec handle s with
    | .ok .. => [⟨scope, spec, handle⟩]
    | .error .. => []
  | .instantiate subflow index =>
    match subflow.spec.output? with
    | none => []
    | some _ =>
      if s.depthLimit < (s.scopes.itemPath subflow.scope).length + 1 then []
      else
        match s.scopes.scope? subflow.scope with
        | none => []
        | some above =>
          Compile.registrations s.scopes.size subflow.spec.operators
            (s.forked subflow.scope above index)
  | _ => []

namespace Session

/-- The registrations of several operations in turn. -/
def registrations (s : Session) : List Operation → List Registration
  | [] => []
  | op :: rest => op.registrations s ++ (op.after s).registrations rest

/-- The datasets that a scope itself has; none at a place without a scope. -/
def datasetsIn (s : Session) (scope : ScopeId) : Table String (Table String Handle) :=
  ((s.scopes.scope? scope).map Scope.data).getD .empty

/-- The node that fills a role of a dataset in a scope itself. -/
def role? (s : Session) (scope : ScopeId) (dataset name : String) : Option Handle :=
  (((s.datasetsIn scope).get? dataset).getD .empty).get? name

/-- Whether a scope itself has a record of a dataset. -/
def hasDataset (s : Session) (scope : ScopeId) (dataset : String) : Bool :=
  (s.datasetsIn scope).contains dataset

end Session

/-- The node of a registration, if it fills the role in the scope. -/
def Registration.filling? (scope : ScopeId) (dataset name : String) (r : Registration) :
    Option Handle :=
  if r.scope = scope ∧ r.spec.fills dataset name = true then some r.handle else none

/-- The node of the last registration that fills the role in the scope. -/
def lastFilling (log : List Registration) (scope : ScopeId) (dataset name : String) :
    Option Handle :=
  log.reverse.findSome? (Registration.filling? scope dataset name)

theorem lastFilling_append (xs ys : List Registration) (scope : ScopeId) (dataset name : String) :
    lastFilling (xs ++ ys) scope dataset name =
      (lastFilling ys scope dataset name).or (lastFilling xs scope dataset name) := by
  rw [lastFilling, List.reverse_append, List.findSome?_append]
  rfl

/-- What the scopes record of their datasets has been added to by these registrations in turn. -/
structure Session.Gains (s : Session) (log : List Registration) (s' : Session) : Prop where
  roles : ∀ scope dataset name, s'.role? scope dataset name =
    (lastFilling log scope dataset name).or (s.role? scope dataset name)
  datasets : ∀ scope dataset, s'.hasDataset scope dataset = true ↔
    s.hasDataset scope dataset = true ∨
      ∃ r ∈ log, r.scope = scope ∧ ∃ name, r.spec.fills dataset name = true

namespace Session

variable {s s' s'' : Session} {xs ys : List Registration}

theorem Gains.trans (h : s.Gains xs s') (h' : s'.Gains ys s'') : s.Gains (xs ++ ys) s'' where
  roles := fun scope dataset name => by
    rw [h'.roles, h.roles, lastFilling_append, Option.or_assoc]
  datasets := fun scope dataset => by
    rw [h'.datasets, h.datasets, or_assoc]
    simp only [List.mem_append, or_and_right, exists_or]

/-- Where all scopes have the datasets that they had, nothing has been registered. -/
theorem Gains.of_same (h : ∀ id, s'.datasetsIn id = s.datasetsIn id) : s.Gains [] s' where
  roles := fun scope dataset name => by
    rw [role?, h]
    rfl
  datasets := fun scope dataset => by
    rw [hasDataset, h]
    simp [hasDataset]

theorem SamePublished.gains (h : s.SamePublished s') : s.Gains [] s' := by
  refine Gains.of_same fun id => ?_
  have hpublished : (s'.scopes.scope? id).map Scope.published =
      (s.scopes.scope? id).map Scope.published := by
    simp only [ScopeTree.scope?, ← List.getElem?_map, show _ = _ from h]
  -- The datasets are one of the parts that are the same.
  have hdata : ∀ t : Session, t.datasetsIn id =
      (((t.scopes.scope? id).map Scope.published).map fun p => p.2.2.1).getD .empty := by
    intro t
    rw [Option.map_map]
    rfl
  rw [hdata, hdata, hpublished]

theorem Gains.samePublished (h : s.Gains xs s') (h' : s'.SamePublished s'') : s.Gains xs s'' := by
  simpa only [List.append_nil] using h.trans h'.gains

/-- A new scope has no datasets, and its parent keeps what it has. -/
theorem gains_forked (s : Session) (parent : ScopeId) (above : Scope) (index : Nat) :
    s.Gains [] (s.forked parent above index) := by
  refine Gains.of_same fun id => ?_
  simp only [datasetsIn, forked, ScopeTree.scope?, ScopeTree.size, List.getElem?_append,
    List.length_modify, List.getElem?_modify, List.getElem?_singleton]
  -- The new scope has the place after all others.
  by_cases hlt : id < s.scopes.scopes.length
  · rw [if_pos hlt, List.getElem?_eq_getElem hlt]
    simp only [Option.map_some, Option.getD_some]
    split <;> rfl
  · rw [if_neg hlt, List.getElem?_eq_none (Nat.not_lt.mp hlt)]
    split <;> rfl

/-- A registration adds what it fills. -/
theorem Registered.gains {scope : ScopeId} {spec : OperatorSpec} {handle : Handle}
    (h : s.Registered scope spec handle s') : s.Gains [⟨scope, spec, handle⟩] s' := by
  obtain ⟨sc, sc', hsc, hsc', hreg⟩ := h.own
  have hbefore : s.datasetsIn scope = sc.data := by rw [datasetsIn, hsc]; rfl
  have hafter : s'.datasetsIn scope = sc'.data := by rw [datasetsIn, hsc']; rfl
  have hothers : ∀ id, scope ≠ id → s'.datasetsIn id = s.datasetsIn id := by
    intro id hid
    rw [datasetsIn, h.others id hid.symm]
    rfl
  constructor
  · intro id dataset name
    have hlast : lastFilling [⟨scope, spec, handle⟩] id dataset name =
        if scope = id ∧ spec.fills dataset name = true then some handle else none := by
      simp only [lastFilling, List.reverse_singleton, List.findSome?_singleton,
        Registration.filling?]
    rw [hlast]
    by_cases hid : scope = id
    · subst hid
      rw [role?, hafter, role?, hbefore]
      refine (hreg.roles dataset name).trans ?_
      cases spec.fills dataset name <;> simp [Scope.roles]
    · rw [role?, hothers id hid, if_neg fun h => hid h.1]
      rfl
  · intro id dataset
    simp only [List.mem_singleton, exists_eq_left]
    by_cases hid : scope = id
    · subst hid
      rw [hasDataset, hafter, hasDataset, hbefore]
      simpa only [true_and] using hreg.datasets dataset
    · simp only [hasDataset, hothers id hid, hid, false_and, or_false]

end Session

/-! ## Steps -/

namespace Compile

variable {scope : ScopeId} {s : Session}

/-- A step that leaves all public names gains nothing. -/
theorem Relates.gains {α : Type} {m : Compile α} (h : Relates Session.SamePublished m)
    (s : Session) : Ends m s (fun _ s' => s.Gains [] s') fun _ s' => s.Gains [] s' :=
  (h s).mono (fun _ _ h => h.gains) fun _ _ h => h.2.gains

/-- An operator gains what its registration fills, if it does not fail. -/
theorem gains_operator (spec : OperatorSpec) :
    Ends (operator scope spec) s (fun handle s' => s.Gains [⟨scope, spec, handle⟩] s')
      fun _ s' => s.Gains [] s' := by
  unfold Ends
  cases hrun : operator scope spec s with
  | error e s' => exact (samePublished_of_operator_error hrun).gains
  | ok handle s' =>
    rw [operator_eq, bind_eq_ok] at hrun
    obtain ⟨r, t, hprepare, hmake⟩ := hrun
    obtain ⟨h, t', hadd, hrest⟩ := bind_eq_ok.mp hmake
    obtain ⟨_, t'', hregister, hpure⟩ := bind_eq_ok.mp hrest
    cases hpure
    -- Before it is registered the operator is resolved, and its node is asked for.
    have hR := Session.allowsSharing_samePublished
    have hbefore : s.SamePublished t' := hR.trans ((relates_prepare hR spec s).ok hprepare)
      ((relates_send (fun _ _ => rfl) _ t).ok hadd)
    exact hbefore.gains.trans (registered_of_register hregister).gains

/-- What comes after an operator adds to what the operator has gained. -/
theorem gains_operator_then (spec : OperatorSpec) (rest : List OperatorSpec) :
    Ends (operator scope spec) s
      (fun _ s' => ∀ t : Session, s'.Gains (registrations scope rest s') t →
        s.Gains (registrations scope (spec :: rest) s) t)
      fun _ s' => s.Gains (registrations scope (spec :: rest) s) s' := by
  have hfirst := @gains_operator scope s spec
  unfold Ends
  simp only [registrations]
  cases hrun : operator scope spec s with
  | error e s₁ => exact hfirst.error hrun
  | ok handle s₁ => exact fun t h => (hfirst.ok hrun).trans h

theorem gains_operators (specs : List OperatorSpec) :
    Ends (forM specs fun o => within o.id (discard (operator scope o))) s
      (fun _ s' => s.Gains (registrations scope specs s) s')
      fun _ s' => s.Gains (registrations scope specs s) s' := by
  induction specs generalizing s with
  | nil => exact Session.SamePublished.gains rfl
  | cons spec rest ih =>
    rw [List.forM_cons, ends_bind, ends_within, ends_discard]
    refine (gains_operator_then spec rest).mono (fun _ s₁ hthen => ?_) fun _ _ h => h
    exact ih.mono (fun _ s₂ h => hthen s₂ h) fun _ s₂ h => hthen s₂ h

/-- Of a specification only the operators are registered. -/
theorem gains_specification (spec : Spec) :
    Ends (specification scope spec) s
      (fun _ s' => s.Gains (registrations scope spec.operators s) s')
      fun _ s' => s.Gains (registrations scope spec.operators s) s' := by
  have hR := Session.allowsSharing_samePublished
  have hstream : ∀ x : StreamSpec, Relates Session.SamePublished (discard (stream scope x)) :=
    fun x => relates_discard (relates_stream hR (fun _ _ => rfl)
      fun s handle => s.samePublished_edited scope _ fun _ => rfl)
  have hlistener : ∀ x : UpdateSpec, Relates Session.SamePublished (listener scope x) :=
    fun x => relates_listener hR (fun _ _ => rfl) x
  unfold specification
  rw [ends_bind]
  -- The operators come first, and all that follows them leaves the public names.
  refine (gains_operators spec.operators).mono (fun _ s₁ h₁ => ?_) fun _ _ h => h
  rw [ends_bind]
  refine (ends_forM_within hR hstream s₁).mono (fun _ s₂ h₂ => ?_) fun _ _ h₂ => h₁.samePublished h₂
  have hdone := h₁.samePublished h₂
  exact (ends_forM_within hR hlistener s₂).mono (fun _ _ h₃ => hdone.samePublished h₃)
    fun _ _ h₃ => hdone.samePublished h₃

/-- The node that stands for a copy is only looked up. -/
theorem gains_copy (spec : Spec) (output : EntryId) :
    Ends (specification scope spec >>= fun _ => node scope output) s
      (fun _ s' => s.Gains (registrations scope spec.operators s) s')
      fun _ s' => s.Gains (registrations scope spec.operators s) s' := by
  rw [ends_bind]
  refine (gains_specification spec).mono (fun _ s₁ h₁ => ?_) fun _ _ h => h
  exact (relates_node Session.allowsSharing_samePublished output s₁).mono
    (fun _ _ h₂ => h₁.samePublished h₂) fun _ _ h₂ => h₁.samePublished h₂.2

end Compile

/-! ## Operations -/

/-- An operation gains what the registrations fill that it makes. -/
theorem Operation.gains_after (op : Operation) (s : Session) :
    s.Gains (op.registrations s) (op.after s) := by
  have hR := Session.allowsSharing_samePublished
  have hsend : ∀ r : Request, Compile.Relates Session.SamePublished (Compile.send r) :=
    fun r => Compile.relates_send (fun _ _ => rfl) r
  refine after_of_ends (P := fun s' => s.Gains (op.registrations s) s') ?_
  cases op with
  | compile spec => exact Compile.gains_specification spec
  | compileIn scope spec => exact Compile.gains_specification spec
  | operator scope spec =>
    show Compile.Ends (discard (Compile.operator scope spec)) s _ _
    rw [Compile.ends_discard]
    exact (Compile.gains_operator_then spec []).mono
      (fun _ s' h => h s' (Session.SamePublished.gains rfl)) fun _ _ h => h
  | register scope spec handle =>
    show Compile.Ends (Compile.register scope spec handle) s _ _
    simp only [registrations, Compile.Ends]
    cases hrun : Compile.register scope spec handle s with
    | ok _ s' => exact (registered_of_register hrun).gains
    | error e s' => exact (Compile.samePublished_of_register_error hrun).gains
  | resolve scope value =>
    exact (Compile.relates_discard (Compile.relates_resolve hR value)).gains s
  | resolveReference scope r =>
    exact (Compile.relates_discard (Compile.relates_resolveReference hR r)).gains s
  | resolveInto scope params members =>
    exact (Compile.relates_discard (Compile.relates_resolveInto hR params members)).gains s
  | fork parent index =>
    show Compile.Ends (discard (Compile.fork parent index)) s _ _
    rw [Compile.ends_discard, Compile.ends_fork_forked]
    cases s.scopes.scope? parent with
    | none => exact Session.SamePublished.gains rfl
    | some above => exact s.gains_forked parent above index
  | instantiate subflow index =>
    show Compile.Ends (discard (Compile.instantiate subflow index)) s _ _
    rw [Compile.ends_discard, Compile.ends_instantiate]
    simp only [registrations]
    cases subflow.spec.output? with
    | none => exact Session.SamePublished.gains rfl
    | some output =>
      by_cases hdeep : s.depthLimit < (s.scopes.itemPath subflow.scope).length + 1
      · simp only [if_pos hdeep]
        exact Session.SamePublished.gains rfl
      · simp only [if_neg hdeep]
        cases s.scopes.scope? subflow.scope with
        | none => exact Session.SamePublished.gains rfl
        | some above =>
          have hfork := s.gains_forked subflow.scope above index
          exact (Compile.gains_copy subflow.spec output.id).mono (fun _ _ h => hfork.trans h)
            fun _ _ h => hfork.trans h
  | events source params => exact (Compile.relates_discard (hsend _)).gains s
  | request r => exact (Compile.relates_discard (hsend r)).gains s

theorem Session.gains_run (s : Session) (ops : List Operation) :
    s.Gains (s.registrations ops) (s.run ops) := by
  induction ops generalizing s with
  | nil => exact Session.SamePublished.gains rfl
  | cons op rest ih => exact (op.gains_after s).trans (ih (op.after s))

/-- After every run: a registration that succeeds changes in its scope the node of the entry, the
output if the entry is marked, and the public names that are declared, and nothing else anywhere.
So a scope has a record of a dataset if a registration in it has filled a role, and each role has
the node of the last registration in it that has filled this role. -/
theorem registrations_recorded (library : Option Library) (transforms : Registry) (depthLimit : Nat)
    (ops : List Operation) :
    let start := Session.new library transforms depthLimit
    let s := start.run ops
    (∀ scope spec handle s', Compile.register scope spec handle s = .ok () s' →
      s.Registered scope spec handle s') ∧
    ∀ scope dataset,
      (s.hasDataset scope dataset = true ↔ ∃ r ∈ start.registrations ops,
        r.scope = scope ∧ ∃ name, r.spec.fills dataset name = true) ∧
      ∀ name, s.role? scope dataset name =
        lastFilling (start.registrations ops) scope dataset name := by
  intro start s
  have hgains : start.Gains (start.registrations ops) s := start.gains_run ops
  refine ⟨fun scope spec handle s' h => registered_of_register h, fun scope dataset => ?_⟩
  -- At the start there is one scope, and it has no datasets.
  have hnone : start.hasDataset scope dataset = false ∧
      ∀ name, start.role? scope dataset name = none := by
    cases scope with
    | zero => exact ⟨rfl, fun _ => rfl⟩
    | succ n => exact ⟨rfl, fun _ => rfl⟩
  constructor
  · rw [hgains.datasets, hnone.1]
    simp
  · intro name
    rw [hgains.roles, hnone.2, Option.or_none]

/-- An operator that fills roles of the dataset of rows. -/
def rowsOperator (id : String) (names : List String) : OperatorSpec :=
  { OperatorSpec.named id with data := some (.ofList [("rows", names)]) }

/-- The second operator takes over one role of the first, and the first keeps the other. -/
theorem registrations_recorded_rows :
    let s := (Session.new none .empty 64).run
      [.compile ⟨[rowsOperator "a" ["x", "y"], rowsOperator "b" ["y", "z"]], [], []⟩]
    (∃ s', Compile.register ScopeTree.rootId (rowsOperator "c" ["x"]) 1 s = .ok () s' ∧
      s.Registered ScopeTree.rootId (rowsOperator "c" ["x"]) 1 s') ∧
    s.role? ScopeTree.rootId "rows" "x" = some 0 ∧ s.role? ScopeTree.rootId "rows" "y" = some 1 ∧
    s.role? ScopeTree.rootId "rows" "z" = some 1 := by
  intro s
  obtain ⟨hregister, hroles⟩ := registrations_recorded none .empty 64
    [.compile ⟨[rowsOperator "a" ["x", "y"], rowsOperator "b" ["y", "z"]], [], []⟩]
  obtain ⟨_, s', hs'⟩ := Compile.exists_of_succeeds (s := s)
    (m := Compile.register ScopeTree.rootId (rowsOperator "c" ["x"]) 1) (by decide +kernel)
  have hlast := (hroles ScopeTree.rootId "rows").2
  refine ⟨⟨s', hs', hregister _ _ _ _ hs'⟩, ?_, ?_, ?_⟩
  · exact (hlast "x").trans (by decide +kernel)
  · exact (hlast "y").trans (by decide +kernel)
  · exact (hlast "z").trans (by decide +kernel)

end Dataflow
