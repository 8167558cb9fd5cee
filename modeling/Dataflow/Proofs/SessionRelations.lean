import Dataflow.Proofs.CompileChanges

/-!
# What a step leaves as it was

Most of what is said about a step is that something of the session is the same before and after it,
or has only grown. `Relates R m` says so for any relation `R` between sessions: however the step `m`
ends, the session at the end is related to the one at the start. An error of such a step does not
name an entry; that is left to whoever compiles the entries in turn.

Resolving does nothing but share functions, so it relates sessions by every `R` that sharing keeps
(`AllowsSharing`). What makes requests or records nodes needs that `R` keeps these too. So a fact
about all steps of one kind is proved by looking at the elementary changes only.
-/

namespace Dataflow

/-- Whether an error names the entry that has raised it. -/
def CompileError.isNamed : CompileError → Bool
  | .inOperator .. => true
  | _ => false

theorem CompileError.isNamed_of_isPlain {e : CompileError} (h : e.isPlain = true) :
    e.isNamed = false := by
  cases e with
  | inOperator id source => exact nomatch h
  | _ => rfl

theorem CompileError.isNamed_eq_false {e : CompileError} :
    e.isNamed = false ↔ ∀ id source, e ≠ .inOperator id source := by
  cases e <;> simp [CompileError.isNamed]

/-- An error without a name gets one. -/
theorem CompileError.within_of_isNamed_eq_false {e : CompileError} (h : e.isNamed = false)
    (id : EntryId) : CompileError.within id e = .inOperator id e := by
  cases e with
  | inOperator id source => exact nomatch h
  | _ => rfl

/-- The relation is kept where a function is shared under a key that has none yet, and passes from
one step to the next. -/
structure Session.AllowsSharing (R : Session → Session → Prop) : Prop where
  refl : ∀ s, R s s
  trans : ∀ {s s' s''}, R s s' → R s' s'' → R s s''
  counted : ∀ s, R s s.counted
  shared : ∀ (s : Session) (scope : ScopeId) (key : MemoKey) (f : Function),
    s.scopes.function? scope key = none → R s (s.edited scope (Scope.share key f))

/-- Every step relates sessions in this way. -/
theorem Session.allowsSharing_true : Session.AllowsSharing fun _ _ => True :=
  ⟨fun _ => trivial, fun _ _ => trivial, fun _ => trivial, fun _ _ _ _ _ => trivial⟩

namespace Compile

/-- However the step ends, the session at the end is related to the one at the start, and an error
names no entry. -/
def Relates {α : Type} (R : Session → Session → Prop) (m : Compile α) : Prop :=
  ∀ s : Session, Ends m s (fun _ s' => R s s') fun e s' => e.isNamed = false ∧ R s s'

variable {R : Session → Session → Prop} {α β : Type} {scope : ScopeId}

/-! ## Registering in two stages -/

/-- All of registering a node that comes before it is published. -/
def enter (scope : ScopeId) (spec : OperatorSpec) (handle : Handle) : Compile Unit := do
  write (·.setNode scope spec.id handle)
  if spec.isCollect then forM spec.value (load handle)
  if spec.root then write (·.setRoot scope handle)
  forM spec.parent fun parent => attach scope spec.id parent handle

theorem enter_eq (spec : OperatorSpec) (handle : Handle) :
    enter scope spec handle =
      write (·.setNode scope spec.id handle) >>= fun _ =>
        (if spec.isCollect then forM spec.value (load handle) else pure ()) >>= fun _ =>
          (if spec.root then write (·.setRoot scope handle) else pure ()) >>= fun _ =>
            forM spec.parent fun parent => attach scope spec.id parent handle := by
  unfold enter
  cases spec.isCollect <;> cases spec.root <;> rfl

/-- The steps of registering a node one after another. -/
theorem register_eq (spec : OperatorSpec) (handle : Handle) :
    register scope spec handle =
      write (·.setNode scope spec.id handle) >>= fun _ =>
        (if spec.isCollect then forM spec.value (load handle) else pure ()) >>= fun _ =>
          (if spec.root then write (·.setRoot scope handle) else pure ()) >>= fun _ =>
            (forM spec.parent fun parent => attach scope spec.id parent handle) >>= fun _ =>
              publish scope spec handle := by
  unfold register
  -- The two conditions decide which steps there are; each choice is the same sequence.
  cases spec.isCollect <;> cases spec.root <;> rfl

theorem register_eq_enter (spec : OperatorSpec) (handle : Handle) :
    register scope spec handle =
      enter scope spec handle >>= fun _ => publish scope spec handle := by
  rw [register_eq, enter_eq]
  simp only [bind_assoc]

/-! ## Putting steps together -/

section

variable (hR : Session.AllowsSharing R)

include hR

theorem relates_pure (a : α) : Relates R (pure a) := fun s => hR.refl s

theorem relates_throw {e : CompileError} (h : e.isNamed = false) :
    Relates R (throw e : Compile α) := fun s => ⟨h, hR.refl s⟩

theorem relates_bind {m : Compile α} {f : α → Compile β} (hm : Relates R m)
    (hf : ∀ a, Relates R (f a)) : Relates R (m >>= f) := by
  intro s
  rw [ends_bind]
  refine (hm s).mono (fun a s₁ h₁ => ?_) fun _ _ h => h
  -- The session in between is related to the one before, and the last one to it.
  exact (hf a s₁).mono (fun _ _ h₂ => hR.trans h₁ h₂) fun _ _ ⟨he, h₂⟩ => ⟨he, hR.trans h₁ h₂⟩

omit hR in
theorem relates_get {f : Session → Compile α} (h : ∀ s, Relates R (f s)) :
    Relates R (get >>= f) := by
  intro s
  rw [ends_bind, ends_get]
  exact h s s

omit hR in
theorem relates_discard {m : Compile α} (h : Relates R m) : Relates R (discard m) := by
  intro s
  rw [ends_discard]
  exact h s

theorem relates_ofExcept {x : Except CompileError α} (h : Plain x) :
    Relates R (MonadExcept.ofExcept x : Compile α) := by
  intro s
  rw [ends_ofExcept]
  exact ⟨fun _ _ => hR.refl s, fun e he => ⟨CompileError.isNamed_of_isPlain (h e he), hR.refl s⟩⟩

theorem relates_forM {γ : Type} {xs : List γ} {f : γ → Compile Unit}
    (h : ∀ x, Relates R (f x)) : Relates R (forM xs f) := by
  induction xs with
  | nil => exact relates_pure hR ()
  | cons x rest ih =>
    rw [List.forM_cons]
    exact relates_bind hR (h x) fun _ => ih

theorem relates_forM_option {γ : Type} {x : Option γ} {f : γ → Compile Unit}
    (h : ∀ a, Relates R (f a)) : Relates R (forM x f) := by
  cases x with
  | none => exact relates_pure hR ()
  | some a => exact h a

theorem relates_mapM {γ : Type} {xs : List γ} {f : γ → Compile α} (h : ∀ x, Relates R (f x)) :
    Relates R (xs.mapM f) := by
  induction xs with
  | nil => exact relates_pure hR []
  | cons x rest ih =>
    rw [List.mapM_cons]
    exact relates_bind hR (h x) fun a => relates_bind hR ih fun as => relates_pure hR _

theorem relates_mapM_option {γ : Type} {x : Option γ} {f : γ → Compile α}
    (h : ∀ a, Relates R (f a)) : Relates R (x.mapM f) := by
  cases x with
  | none => exact relates_pure hR none
  | some a =>
    have hmap : (some a).mapM f = f a >>= fun b => pure (some b) := map_eq_pure_bind ..
    rw [hmap]
    exact relates_bind hR (h a) fun b => relates_pure hR _

/-- Steps in turn relate the sessions too where the error of each is given a name. -/
theorem ends_forM_within {γ : Type} {xs : List γ} {id : γ → EntryId} {f : γ → Compile Unit}
    (h : ∀ x, Relates R (f x)) (s : Session) :
    Ends (forM xs fun x => within (id x) (f x)) s (fun _ s' => R s s') fun _ s' => R s s' := by
  induction xs generalizing s with
  | nil => exact hR.refl s
  | cons x rest ih =>
    rw [List.forM_cons, ends_bind, ends_within]
    refine (h x s).mono (fun _ s₁ h₁ => ?_) fun _ _ h₁ => h₁.2
    exact (ih s₁).mono (fun _ _ h₂ => hR.trans h₁ h₂) fun _ _ h₂ => hR.trans h₁ h₂

/-! ## Resolving -/

theorem relates_node (id : EntryId) : Relates R (node scope id) := by
  intro s
  rw [ends_node]
  exact ⟨fun _ _ => hR.refl s, fun _ => ⟨rfl, hR.refl s⟩⟩

theorem relates_shared {key : MemoKey} {make : Nat → Except CompileError Function}
    (hmake : ∀ n, Plain (make n)) : Relates R (shared scope key make) := by
  intro s
  rw [ends_shared]
  cases hf : s.scopes.function? scope key with
  | some f => exact hR.refl s
  | none =>
    cases hm : make s.nextSerial with
    | error e => exact ⟨CompileError.isNamed_of_isPlain (hmake _ e hm), hR.counted s⟩
    | ok f =>
      -- The scopes are the same after a number has been taken, so the key still has no function.
      have hshare : R s.counted (s.counted.edited scope (Scope.share key f)) :=
        hR.shared s.counted scope key f hf
      exact ⟨fun _ => hR.trans (hR.counted s) hshare, fun _ => ⟨rfl, hR.counted s⟩⟩

theorem relates_resolveReference (r : Reference) : Relates R (resolveReference scope r) := by
  cases r with
  | operator id => exact relates_bind hR (relates_node hR id) fun _ => relates_pure hR _
  | expression e =>
    refine relates_get fun s => relates_bind hR (relates_shared hR fun n => ?_) fun _ =>
      relates_pure hR _
    exact plain_map (Accessor.ofExpression_plain _ _ _ _ _)
  | field path name =>
    refine relates_bind hR (relates_shared hR fun n => ?_) fun _ => relates_pure hR _
    exact plain_map (Accessor.ofField_plain _ _ _)
  | compare fields directions =>
    refine relates_bind hR (relates_shared hR fun n => ?_) fun _ => relates_pure hR _
    exact plain_map (Comparator.ofFields_plain _ _ _)
  | subflow spec => exact relates_pure hR _

theorem relates_resolveOne (v : Json) : Relates R (resolveOne scope v) := by
  refine relates_bind hR (relates_ofExcept hR (Reference.decode_plain v)) fun r => ?_
  cases r with
  | some r => exact relates_resolveReference hR r
  | none => exact relates_pure hR _

theorem relates_resolve (v : Json) : Relates R (resolve scope v) := by
  cases v with
  | array items =>
    exact relates_bind hR (relates_mapM hR (relates_resolveOne hR)) fun _ => relates_pure hR _
  | _ => exact relates_resolveOne hR _

theorem relates_resolveInto (params : Parameters) (members : List (String × Json)) :
    Relates R (resolveInto scope params members) := by
  induction params, members using resolveInto.induct scope with
  | case1 params =>
    rw [resolveInto]
    exact relates_pure hR params
  | case2 params name v rest ihNested ihRest =>
    -- The induction also covers what the first value brings along, which is smaller than the list.
    have hbrought : Relates R (resolveBrought scope params v) := by
      unfold resolveBrought
      split
      · rename_i nested hn
        exact ihNested nested hn
      · exact relates_pure hR params
    rw [resolveInto_cons]
    exact relates_bind hR hbrought fun params' =>
      relates_bind hR (relates_resolve hR v) fun p => ihRest params' p

theorem relates_resolveBrought (params : Parameters) (v : Json) :
    Relates R (resolveBrought scope params v) := by
  unfold resolveBrought
  split
  · exact relates_resolveInto hR params _
  · exact relates_pure hR params

theorem relates_resolveFunction (role : Role) (params : Parameters) (v : Json) :
    Relates R (resolveFunction scope role params v) := by
  refine relates_bind hR (relates_resolveBrought hR params v) fun params' =>
    relates_bind hR (relates_resolveOne hR v) fun p => ?_
  cases p with
  | accessor f => exact relates_pure hR _
  | _ => exact relates_throw hR rfl

theorem relates_resolveValue (spec : OperatorSpec) : Relates R (resolveValue scope spec) := by
  unfold resolveValue
  split
  · exact relates_pure hR _
  · split
    · exact relates_bind hR (relates_resolveInto hR .empty _) fun _ => relates_pure hR _
    · exact relates_pure hR _

theorem relates_behavior (spec : OperatorSpec) (params : Parameters) (initial : Option Json) :
    Relates R (behavior scope spec params initial) := by
  refine relates_get fun s => ?_
  cases transform? spec s.transforms with
  | some t => exact relates_pure hR _
  | none =>
    cases spec.update with
    | none => exact relates_pure hR _
    | some v =>
      exact relates_bind hR (relates_resolveFunction hR .update params v) fun _ => relates_pure hR _

theorem relates_listenerUpdate (v : Json) : Relates R (listenerUpdate scope v) := by
  refine relates_bind hR (relates_resolveBrought hR .empty v) fun params =>
    relates_bind hR (relates_resolveOne hR v) fun p => ?_
  cases p with
  | literal v => exact relates_pure hR _
  | accessor f => exact relates_pure hR _
  | _ => exact relates_throw hR rfl

/-! ## Requests and records -/

/-- A step that records a node in a slot. -/
theorem relates_record (slot : Slot) {handle : Handle}
    (hput : ∀ s : Session, R s (s.edited scope (slot.put handle))) :
    Relates R (write (·.modify scope (slot.put handle))) := by
  intro s
  rw [ends_modify]
  exact ⟨fun _ => hput s, fun _ => ⟨rfl, hR.refl s⟩⟩

/-- A node is published by recording it under its public names; none is the name of an entry. -/
theorem relates_publish (spec : OperatorSpec) (handle : Handle)
    (hput : ∀ (s : Session) (slot : Slot), (∀ id, slot ≠ .node id) →
      R s (s.edited scope (slot.put handle))) :
    Relates R (publish scope spec handle) := by
  refine relates_bind hR (relates_forM_option hR fun name => ?_) fun _ => ?_
  · exact relates_record hR (.signal name) fun s => hput s _ (by simp)
  · refine relates_bind hR (relates_forM_option hR fun name => ?_) fun _ => ?_
    · exact relates_record hR (.scale name) fun s => hput s _ (by simp)
    · refine relates_forM_option hR fun data => relates_forM hR fun (dataset, roles) => ?_
      refine relates_forM hR fun name => ?_
      exact relates_record hR (.role dataset name) fun s => hput s _ (by simp)

variable (hsend : ∀ (s : Session) (r : Request), R s (s.sent r))

include hsend

omit hR in
theorem relates_send (r : Request) : Relates R (send r) := by
  intro s
  rw [ends_send]
  exact ⟨fun _ => hsend s r, fun _ _ => ⟨rfl, hsend s r⟩⟩

omit hR in
theorem relates_load (handle : Handle) (value : Json) : Relates R (load handle value) :=
  relates_discard (relates_send hsend _)

theorem relates_attach (id parent : EntryId) (handle : Handle) :
    Relates R (attach scope id parent handle) := by
  refine relates_get fun s => ?_
  cases s.scopes.node? scope parent with
  | none => exact relates_throw hR rfl
  | some p =>
    -- The second request is made only if the first is carried out.
    exact relates_bind hR (relates_discard (relates_send hsend _)) fun _ =>
      relates_discard (relates_send hsend _)

/-- Before it is published, a node is recorded only for its entry and as the output. -/
theorem relates_enter (spec : OperatorSpec) (handle : Handle)
    (hnode : ∀ s : Session, R s (s.edited scope ((Slot.node spec.id).put handle)))
    (hroot : ∀ s : Session, R s (s.edited scope (Slot.root.put handle))) :
    Relates R (enter scope spec handle) := by
  rw [enter_eq]
  refine relates_bind hR (relates_record hR (.node spec.id) hnode) fun _ =>
    relates_bind hR ?_ fun _ => relates_bind hR ?_ fun _ => ?_
  · split
    · exact relates_forM_option hR fun v => relates_load hsend handle v
    · exact relates_pure hR ()
  · split
    · exact relates_record hR .root hroot
    · exact relates_pure hR ()
  · exact relates_forM_option hR fun parent => relates_attach hR hsend spec.id parent handle

theorem relates_register (spec : OperatorSpec) (handle : Handle)
    (hput : ∀ (s : Session) (slot : Slot), R s (s.edited scope (slot.put handle))) :
    Relates R (register scope spec handle) := by
  rw [register_eq_enter]
  refine relates_bind hR ?_ fun _ => relates_publish hR spec handle fun s slot _ => hput s slot
  exact relates_enter hR hsend spec handle (fun s => hput s _) fun s => hput s _

theorem relates_operator (spec : OperatorSpec)
    (hput : ∀ (s : Session) (slot : Slot) (handle : Handle),
      R s (s.edited scope (slot.put handle))) : Relates R (operator scope spec) := by
  unfold operator
  refine relates_bind hR (relates_resolveValue hR spec) fun (params, initial) => ?_
  refine relates_bind hR (relates_resolveInto hR params _) fun params => ?_
  refine relates_bind hR (relates_behavior hR spec params initial) fun (behavior, params) => ?_
  refine relates_bind hR (relates_send hsend _) fun handle => ?_
  have hregister : Relates R (register scope spec handle) :=
    relates_register hR hsend spec handle fun s slot => hput s slot handle
  exact relates_bind hR hregister fun _ => relates_pure hR handle

/-- A listener is registered by one request, after its parts have been resolved. -/
theorem relates_listener (spec : UpdateSpec) : Relates R (listener scope spec) := by
  unfold listener
  cases spec.sourceId? with
  | none => exact relates_throw hR rfl
  | some sourceId =>
    refine relates_bind hR (relates_node hR sourceId) fun source => ?_
    refine relates_bind hR (relates_node hR spec.target) fun target => ?_
    have hlisten : ∀ (update : Option ListenerUpdate) (params : Parameters), Relates R (do
        let params ← resolveInto scope params ((spec.params.map Table.entries).getD [])
        discard <| send (.listen ⟨source, target, update, params, spec.options⟩)) :=
      fun update params => relates_bind hR (relates_resolveInto hR params _) fun _ =>
        relates_discard (relates_send hsend _)
    cases spec.update with
    | none => exact hlisten none .empty
    | some v =>
      exact relates_bind hR (relates_listenerUpdate hR v) fun r => hlisten (some r.1) r.2

/-- A stream makes its node and records it under its name. -/
theorem relates_stream {spec : StreamSpec}
    (hput : ∀ (s : Session) (handle : Handle),
      R s (s.edited scope ((Slot.node spec.id).put handle))) :
    Relates R (stream scope spec) := by
  have hmake : ∀ (source : EventSource) (params : Parameters), Relates R (do
      let handle ← send (.stream source params)
      write (·.setNode scope spec.id handle)
      return handle) :=
    fun source params => relates_bind hR (relates_send hsend _) fun handle =>
      relates_bind hR (relates_record hR (.node spec.id) fun s => hput s handle) fun _ =>
        relates_pure hR _
  unfold stream
  refine relates_bind hR (relates_mapM_option hR fun id => relates_node hR id) fun parent => ?_
  cases spec.filter with
  | none => exact hmake _ _
  | some v =>
    exact relates_bind hR (relates_resolveFunction hR .filter .empty v) fun r => hmake _ r.2

end

end Compile

end Dataflow
