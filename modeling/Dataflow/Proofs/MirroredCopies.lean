import Dataflow.Proofs.MirroredSteps

/-!
# Every step of a copy is mirrored

Each function of `Compile` that is used for a copy does the same for the copy in both of two
sessions that look the same from the scope above (`Twins`). There is one lemma for each, in the
order in which they call each other.

The main result is `Twins.instantiate_alike`: the attempts to make a copy in the two sessions end
alike. With the same session twice, it says what a single attempt does.
-/

namespace Dataflow

/-! ## What functions are made of -/

section

variable {r : Renaming} (serial : Nat)

theorem Accessor.ofField_rename (path : String) (name : Option String) :
    Accessor.ofField (r.serial serial) path name =
      (Accessor.ofField serial path name).map (Accessor.rename r) := by
  unfold Accessor.ofField
  cases FieldPath.split path <;> rfl

theorem Comparator.ofFields_rename (fields : List String) (directions : List Direction) :
    Comparator.ofFields (r.serial serial) fields directions =
      (Comparator.ofFields serial fields directions).map (Comparator.rename r) := by
  unfold Comparator.ofFields
  cases SortKey.ofFields fields directions <;> rfl

/-- Compiling a text does not look at the scope that the library is bound to. -/
theorem Accessor.ofExpression_rename (text : String) (fields : List String) (name : Option String)
    (library : Option Binding) :
    Accessor.ofExpression (r.serial serial) text fields name (library.map (Binding.rename r)) =
      (Accessor.ofExpression serial text fields name library).map (Accessor.rename r) := by
  have hcompile : Expr.compile text (library.map (Binding.rename r)) =
      Expr.compile text library := by
    cases library <;> rfl
  unfold Accessor.ofExpression
  rw [hcompile]
  cases Expr.compile text library <;> rfl

end

namespace Compile

variable {w : Twins} {c : Copy}

/-! ## Resolving -/

theorem mirrors_resolveReference (hc : w.Sound c) (r : Reference) :
    Mirrors w c (resolveReference w.here.scopes.size r) (resolveReference w.there.scopes.size r)
      fun a b _ => b = a.rename w.between := by
  -- Whatever is shared becomes a parameter in the same way.
  have hshared : ∀ {key : MemoKey} {make make' : Nat → Except CompileError Function},
      (∀ n, Plain (make n)) →
      (∀ n, make' (w.between.serial n) = (make n).map (Function.rename w.between)) →
      Mirrors w c (shared w.here.scopes.size key make >>= fun f => pure (Parameter.ofFunction f))
        (shared w.there.scopes.size key make' >>= fun f => pure (Parameter.ofFunction f))
        fun a b _ => b = a.rename w.between := by
    intro key make make' hplain hmake
    refine mirrors_bind (mirrors_shared hc hplain hmake) fun f g c₁ _ hc₁ hg => ?_
    refine mirrors_pure hc₁ ?_
    rw [hg, Parameter.rename_ofFunction]
  cases r with
  | operator id =>
    refine mirrors_bind (mirrors_node hc id) fun a b c₁ _ hc₁ ⟨hb, _⟩ => mirrors_pure hc₁ ?_
    rw [hb]
    rfl
  | subflow spec =>
    refine mirrors_pure hc ?_
    show Parameter.subflow ⟨spec, w.there.scopes.size⟩ =
      .subflow ⟨spec, w.between.scope w.here.scopes.size⟩
    rw [w.scope_new]
  | field path name =>
    refine hshared (fun n => plain_map (Accessor.ofField_plain n path name)) fun n => ?_
    rw [Accessor.ofField_rename]
    cases Accessor.ofField n path name <;> rfl
  | compare fields directions =>
    refine hshared (fun n => plain_map (Comparator.ofFields_plain n fields directions)) fun n => ?_
    rw [Comparator.ofFields_rename]
    cases Comparator.ofFields n fields directions <;> rfl
  | expression e =>
    refine mirrors_get ?_
    refine hshared (fun n => plain_map (Accessor.ofExpression_plain n _ _ _ _)) fun n => ?_
    rw [Twins.library?_hereWith, Twins.library?_thereWith, Accessor.ofExpression_rename]
    cases Accessor.ofExpression n e.text e.fields e.name c.scope.library <;> rfl

theorem mirrors_resolveOne (hc : w.Sound c) (v : Json) :
    Mirrors w c (resolveOne w.here.scopes.size v) (resolveOne w.there.scopes.size v)
      fun a b _ => b = a.rename w.between := by
  have hdecode : Mirrors w c (MonadExcept.ofExcept (Reference.decode v))
      (MonadExcept.ofExcept (Reference.decode v)) fun a b _ => a = b :=
    mirrors_ofExcept hc (Reference.decode_plain v) fun _ _ => rfl
  refine mirrors_bind hdecode fun r _ c₁ _ hc₁ hr => ?_
  subst hr
  cases r with
  | some r => exact mirrors_resolveReference hc₁ r
  | none => exact mirrors_pure hc₁ rfl

theorem mirrors_resolve (hc : w.Sound c) (v : Json) :
    Mirrors w c (resolve w.here.scopes.size v) (resolve w.there.scopes.size v)
      fun a b _ => b = a.rename w.between := by
  cases v with
  | array items =>
    have hitems := mirrors_mapM hc fun v (_ : v ∈ items) c₁ hc₁ => mirrors_resolveOne hc₁ v
    refine mirrors_bind hitems fun ps qs c₁ _ hc₁ hqs => mirrors_pure hc₁ ?_
    rw [hqs, Parameter.rename, Parameter.renameItems_eq]
  | _ => exact mirrors_resolveOne hc _

theorem mirrors_resolveInto (hc : w.Sound c) (params : Parameters)
    (members : List (String × Json)) :
    Mirrors w c (resolveInto w.here.scopes.size params members)
      (resolveInto w.there.scopes.size (params.rename w.between) members)
      fun a b _ => b = a.rename w.between := by
  -- Nested members come before the member that holds them, so the induction follows the calls.
  induction params, members using resolveInto.induct w.here.scopes.size generalizing c with
  | case1 params =>
    rw [resolveInto, resolveInto]
    exact mirrors_pure hc rfl
  | case2 params name v rest ihNested ihRest =>
    rw [resolveInto_cons, resolveInto_cons]
    have hbrought : Mirrors w c (resolveBrought w.here.scopes.size params v)
        (resolveBrought w.there.scopes.size (params.rename w.between) v)
        fun a b _ => b = a.rename w.between := by
      unfold resolveBrought
      split
      · rename_i nested hn
        exact ihNested nested hn hc
      · exact mirrors_pure hc rfl
    refine mirrors_bind hbrought fun params' _ c₁ _ hc₁ hp => ?_
    subst hp
    refine mirrors_bind (mirrors_resolve hc₁ v) fun p _ c₂ _ hc₂ hp => ?_
    subst hp
    rw [← Parameters.rename_insert]
    exact ihRest params' p hc₂

theorem mirrors_resolveBrought (hc : w.Sound c) (params : Parameters) (v : Json) :
    Mirrors w c (resolveBrought w.here.scopes.size params v)
      (resolveBrought w.there.scopes.size (params.rename w.between) v)
      fun a b _ => b = a.rename w.between := by
  unfold resolveBrought
  split
  · exact mirrors_resolveInto hc params _
  · exact mirrors_pure hc rfl

theorem mirrors_resolveFunction (hc : w.Sound c) (role : Role) (params : Parameters) (v : Json) :
    Mirrors w c (resolveFunction w.here.scopes.size role params v)
      (resolveFunction w.there.scopes.size role (params.rename w.between) v)
      fun a b _ => b = (a.1.rename w.between, a.2.rename w.between) := by
  refine mirrors_bind (mirrors_resolveBrought hc params v) fun params' _ c₁ _ hc₁ hp => ?_
  subst hp
  refine mirrors_bind (mirrors_resolveOne hc₁ v) fun p _ c₂ _ hc₂ hp => ?_
  subst hp
  cases p with
  | accessor f => exact mirrors_pure hc₂ rfl
  | _ => exact mirrors_throw_plain hc₂ rfl

/-! ## Registering -/

theorem mirrors_discard_send {q : Request} (hc : w.Sound c) (hq : q.Concerns (w.Owns c)) :
    Mirrors w c (discard (send q)) (discard (send (q.rename w.between))) Any :=
  mirrors_discard (mirrors_send hc hq).any

theorem mirrors_load (hc : w.Sound c) {handle : Handle} (ho : w.Owns c handle) (value : Json) :
    Mirrors w c (load handle value) (load (w.between.handle handle) value) Any := by
  unfold load
  cases DataLoad.select value with
  | ingest data format => exact mirrors_discard_send (q := .ingest handle data format) hc ho
  | request resource format => exact mirrors_discard_send (q := .fetch handle resource format) hc ho
  | inline records =>
    exact mirrors_discard_send (q := .pulse handle (Changeset.empty.insert records)) hc ho

theorem mirrors_attach (hc : w.Sound c) (id parent : EntryId) {handle : Handle}
    (ho : w.Owns c handle) :
    Mirrors w c (attach w.here.scopes.size id parent handle)
      (attach w.there.scopes.size id parent (w.between.handle handle)) Any := by
  refine mirrors_get ?_
  rw [Twins.node?_thereWith hc]
  cases (w.hereWith c).scopes.node? w.here.scopes.size parent with
  | none => exact mirrors_throw_plain hc rfl
  | some p =>
    -- The parent may have been there before; both requests are about the child.
    have hconnect := mirrors_discard_send (q := .connect p [handle]) hc ⟨handle, rfl, ho⟩
    refine mirrors_bind hconnect fun _ _ c₁ hlater hc₁ _ => ?_
    exact mirrors_discard_send (q := .addTarget p handle) hc₁ (hlater.owns ho)

theorem mirrors_record_any (slot : Slot) {handle : Handle} (hc : w.Sound c)
    (ho : w.Owns c handle) :
    Mirrors w c (write (·.modify w.here.scopes.size (slot.put handle)))
      (write (·.modify w.there.scopes.size (slot.put (w.between.handle handle)))) Any :=
  (mirrors_record slot hc ho).any

theorem mirrors_publish (hc : w.Sound c) (spec : OperatorSpec) {handle : Handle}
    (ho : w.Owns c handle) :
    Mirrors w c (publish w.here.scopes.size spec handle)
      (publish w.there.scopes.size spec (w.between.handle handle)) Any := by
  refine mirrors_bind (mirrors_forM_option hc fun name _ => mirrors_record_any (.signal name) hc ho)
    fun _ _ c₁ hlater hc₁ _ => ?_
  have ho₁ := hlater.owns ho
  refine mirrors_bind
    (mirrors_forM_option hc₁ fun name _ => mirrors_record_any (.scale name) hc₁ ho₁)
    fun _ _ c₂ hlater' hc₂ _ => ?_
  have ho₂ := hlater'.owns ho₁
  refine mirrors_forM_option hc₂ fun data _ => ?_
  refine mirrors_forM hc₂ fun (dataset, roles) _ c₃ hlater₃ hc₃ => ?_
  refine mirrors_forM hc₃ fun name _ c₄ hlater₄ hc₄ => ?_
  exact mirrors_record_any (.role dataset name) hc₄ ((hlater₃.trans hlater₄).owns ho₂)

/-- A node that is registered is recorded under the name of its entry. -/
theorem mirrors_register (hc : w.Sound c) (spec : OperatorSpec) {handle : Handle}
    (ho : w.Owns c handle) :
    Mirrors w c (register w.here.scopes.size spec handle)
      (register w.there.scopes.size spec (w.between.handle handle))
      fun _ _ c' => (c'.scope.nodes.get? spec.id).isSome := by
  unfold register
  refine mirrors_bind (mirrors_record (.node spec.id) hc ho) fun _ _ c₁ hlater hc₁ heq => ?_
  have ho₁ := hlater.owns ho
  have hrecorded : (c₁.scope.nodes.get? spec.id).isSome := by
    rw [heq]
    show ((c.scope.nodes.insert spec.id handle).get? spec.id).isSome
    rw [Table.get?_insert, if_pos rfl]
    rfl
  -- All else leaves the entry recorded.
  have hkeep : ∀ {m n : Compile Unit}, Mirrors w c₁ m n Any →
      Mirrors w c₁ m n fun _ _ c' => (c'.scope.nodes.get? spec.id).isSome :=
    fun h => h.mono fun _ _ _ hlater _ => hlater.entries spec.id hrecorded
  refine hkeep ?_
  have hload : Mirrors w c₁ (forM spec.value (load handle))
      (forM spec.value (load (w.between.handle handle))) Any :=
    mirrors_forM_option hc₁ fun v _ => mirrors_load hc₁ ho₁ v
  have hrest : ∀ c₂, w.Sound c₂ → w.Owns c₂ handle → Mirrors w c₂
      (do
        forM spec.parent fun parent => attach w.here.scopes.size spec.id parent handle
        publish w.here.scopes.size spec handle)
      (do
        forM spec.parent fun parent =>
          attach w.there.scopes.size spec.id parent (w.between.handle handle)
        publish w.there.scopes.size spec (w.between.handle handle)) Any := by
    intro c₂ hc₂ ho₂
    have hattach := mirrors_forM_option (x := spec.parent) hc₂ fun parent _ =>
      mirrors_attach hc₂ spec.id parent ho₂
    refine mirrors_bind hattach fun _ _ c₃ hlater hc₃ _ => ?_
    exact mirrors_publish hc₃ spec (hlater.owns ho₂)
  have hroot : ∀ c₂, w.Sound c₂ → w.Owns c₂ handle →
      Mirrors w c₂ (write (·.setRoot w.here.scopes.size handle))
        (write (·.setRoot w.there.scopes.size (w.between.handle handle))) Any :=
    fun c₂ hc₂ ho₂ => mirrors_record_any .root hc₂ ho₂
  -- The two conditions are independent, and what follows them is the same.
  dsimp only
  split
  · refine mirrors_bind hload fun _ _ c₂ hlater hc₂ _ => ?_
    have ho₂ := hlater.owns ho₁
    split
    · exact mirrors_bind (hroot c₂ hc₂ ho₂) fun _ _ c₃ hlater hc₃ _ =>
        hrest c₃ hc₃ (hlater.owns ho₂)
    · exact hrest c₂ hc₂ ho₂
  · split
    · exact mirrors_bind (hroot c₁ hc₁ ho₁) fun _ _ c₃ hlater hc₃ _ =>
        hrest c₃ hc₃ (hlater.owns ho₁)
    · exact hrest c₁ hc₁ ho₁

/-! ## Making nodes -/

theorem mirrors_resolveValue (hc : w.Sound c) (spec : OperatorSpec) :
    Mirrors w c (resolveValue w.here.scopes.size spec) (resolveValue w.there.scopes.size spec)
      fun a b _ => b = (a.1.rename w.between, a.2) := by
  unfold resolveValue
  split
  · exact mirrors_pure hc rfl
  · split
    · rename_i members _
      refine mirrors_bind (mirrors_resolveInto hc .empty members) fun params _ c₁ _ hc₁ hp => ?_
      subst hp
      refine mirrors_pure hc₁ ?_
      -- Whether everything is plain data does not depend on numbers.
      have hplain : (members.all fun m =>
          ((params.rename w.between).get? m.1).any Parameter.isLiteral) =
            members.all fun m => (params.get? m.1).any Parameter.isLiteral := by
        refine congrArg _ (funext fun m => ?_)
        rw [Parameters.rename, Table.get?_map]
        cases params.get? m.1 with
        | none => rfl
        | some p => exact Parameter.isLiteral_rename p
      rw [hplain]
    · exact mirrors_pure hc rfl

theorem mirrors_behavior (hc : w.Sound c) (spec : OperatorSpec) (params : Parameters)
    (initial : Option Json) :
    Mirrors w c (behavior w.here.scopes.size spec params initial)
      (behavior w.there.scopes.size spec (params.rename w.between) initial)
      fun a b _ => b = (a.1.rename w.between, a.2.rename w.between) := by
  refine mirrors_get ?_
  -- Both sessions know the same transforms.
  have htransforms : (w.thereWith c).transforms = (w.hereWith c).transforms := w.transforms
  rw [htransforms]
  cases transform? spec (w.hereWith c).transforms with
  | some t => exact mirrors_pure hc rfl
  | none =>
    cases spec.update with
    | none => exact mirrors_pure hc rfl
    | some v =>
      refine mirrors_bind (mirrors_resolveFunction hc .update params v) fun r _ c₁ _ hc₁ hr => ?_
      subst hr
      exact mirrors_pure hc₁ rfl

/-- An operator of the copy has corresponding nodes, and its entry is recorded. -/
theorem mirrors_operator (hc : w.Sound c) (spec : OperatorSpec) :
    Mirrors w c (operator w.here.scopes.size spec) (operator w.there.scopes.size spec)
      fun a b c' => b = w.between.handle a ∧ (c'.scope.nodes.get? spec.id).isSome := by
  unfold operator
  refine mirrors_bind (mirrors_resolveValue hc spec) fun (params, initial) _ c₁ _ hc₁ h => ?_
  subst h
  refine mirrors_bind (mirrors_resolveInto hc₁ params _) fun params _ c₂ _ hc₂ h => ?_
  subst h
  refine mirrors_bind (mirrors_behavior hc₂ spec params initial)
    fun (behavior, params) _ c₃ _ hc₃ h => ?_
  subst h
  refine mirrors_bind (mirrors_send (q := .add behavior params spec.react) hc₃ trivial)
    fun handle _ c₄ _ hc₄ ⟨h, hown⟩ => ?_
  subst h
  refine mirrors_bind (mirrors_register hc₄ spec (hown rfl)) fun _ _ c₅ _ hc₅ hrecorded => ?_
  exact mirrors_pure hc₅ ⟨rfl, hrecorded⟩

/-! ## Streams, listeners and specifications -/

theorem mirrors_stream (hc : w.Sound c) (spec : StreamSpec) :
    Mirrors w c (stream w.here.scopes.size spec) (stream w.there.scopes.size spec)
      fun a b _ => b = w.between.handle a := by
  have hnode : ∀ c', w.Sound c' → ∀ id, Mirrors w c' (node w.here.scopes.size id)
      (node w.there.scopes.size id) fun a b _ => b = w.between.handle a :=
    fun c' hc' id => (mirrors_node hc' id).mono fun _ _ _ _ h => h.1
  unfold stream
  refine mirrors_bind (mirrors_mapM_option hc fun id _ => hnode c hc id)
    fun parent _ c₁ _ hc₁ h => ?_
  subst h
  -- What is left to do once the filter is there.
  have hsend : ∀ (filter : Option Accessor) (params : Parameters) (c' : Copy), w.Sound c' →
      Mirrors w c'
        (do
          let handle ← send (.stream ⟨spec.source, spec.kind, parent, filter⟩ params)
          write (·.setNode w.here.scopes.size spec.id handle)
          return handle)
        (do
          let handle ← send (.stream ⟨spec.source, spec.kind, parent.map w.between.handle,
            filter.map (Accessor.rename w.between)⟩ (params.rename w.between))
          write (·.setNode w.there.scopes.size spec.id handle)
          return handle) fun a b _ => b = w.between.handle a := by
    intro filter params c' hc'
    have hstream := mirrors_send
      (q := .stream ⟨spec.source, spec.kind, parent, filter⟩ params) hc' trivial
    refine mirrors_bind hstream fun handle _ c₂ _ hc₂ ⟨h, hown⟩ => ?_
    subst h
    refine mirrors_bind (mirrors_record_any (.node spec.id) hc₂ (hown rfl))
      fun _ _ c₃ _ hc₃ _ => mirrors_pure hc₃ rfl
  cases spec.filter with
  | none => exact hsend none .empty c₁ hc₁
  | some v =>
    refine mirrors_bind (mirrors_resolveFunction hc₁ .filter .empty v) fun r _ c₂ _ hc₂ h => ?_
    subst h
    exact hsend (some r.1) r.2 c₂ hc₂

theorem mirrors_listenerUpdate (hc : w.Sound c) (v : Json) :
    Mirrors w c (listenerUpdate w.here.scopes.size v) (listenerUpdate w.there.scopes.size v)
      fun a b _ => b = (a.1.rename w.between, a.2.rename w.between) := by
  refine mirrors_bind (mirrors_resolveBrought hc .empty v) fun params _ c₁ _ hc₁ h => ?_
  subst h
  refine mirrors_bind (mirrors_resolveOne hc₁ v) fun p _ c₂ _ hc₂ h => ?_
  subst h
  cases p with
  | literal v => exact mirrors_pure hc₂ rfl
  | accessor f => exact mirrors_pure hc₂ rfl
  | _ => exact mirrors_throw_plain hc₂ rfl

theorem mirrors_listener (hc : w.Sound c) (spec : UpdateSpec) :
    Mirrors w c (listener w.here.scopes.size spec) (listener w.there.scopes.size spec) Any := by
  unfold listener
  cases spec.sourceId? with
  | none => exact mirrors_throw_plain hc rfl
  | some sourceId =>
    refine mirrors_bind (mirrors_node hc sourceId) fun source _ c₁ _ hc₁ ⟨h, _⟩ => ?_
    subst h
    refine mirrors_bind (mirrors_node hc₁ spec.target) fun target _ c₂ _ hc₂ ⟨h, _⟩ => ?_
    subst h
    -- What is left to do once the update is there.
    have hsend : ∀ (update : Option ListenerUpdate) (params : Parameters) (c' : Copy), w.Sound c' →
        Mirrors w c'
          (do
            let params ← resolveInto w.here.scopes.size params
              ((spec.params.map Table.entries).getD [])
            discard <| send (.listen ⟨source, target, update, params, spec.options⟩))
          (do
            let params ← resolveInto w.there.scopes.size (params.rename w.between)
              ((spec.params.map Table.entries).getD [])
            discard <| send (.listen ⟨w.between.handle source, w.between.handle target,
              update.map (ListenerUpdate.rename w.between), params, spec.options⟩)) Any := by
      intro update params c' hc'
      refine mirrors_bind (mirrors_resolveInto hc' params _) fun params _ c₃ _ hc₃ h => ?_
      subst h
      exact mirrors_discard_send
        (q := .listen ⟨source, target, update, params, spec.options⟩) hc₃ trivial
    cases spec.update with
    | none => exact hsend none .empty c₂ hc₂
    | some v =>
      refine mirrors_bind (mirrors_listenerUpdate hc₂ v) fun r _ c₃ _ hc₃ h => ?_
      subst h
      exact hsend (some r.1) r.2 c₃ hc₃

/-- A specification does the same for the copy in both sessions. Where it is compiled in full, the
entry that stands for it is recorded. -/
theorem mirrors_specification (hc : w.Sound c) (spec : Spec) :
    Mirrors w c (specification w.here.scopes.size spec) (specification w.there.scopes.size spec)
      fun _ _ c' => ∀ output, spec.output? = some output →
        (c'.scope.nodes.get? output.id).isSome := by
  have hstreams : ∀ c', w.Sound c' → Mirrors w c'
      (forM spec.streams fun s => within s.id (discard (stream w.here.scopes.size s)))
      (forM spec.streams fun s => within s.id (discard (stream w.there.scopes.size s))) Any :=
    fun c' hc' => mirrors_forM hc' fun s _ c₁ _ hc₁ =>
      mirrors_within (mirrors_discard (mirrors_stream hc₁ s).any)
  have hlisteners : ∀ c', w.Sound c' → Mirrors w c'
      (forM spec.updates fun u => within u.target (listener w.here.scopes.size u))
      (forM spec.updates fun u => within u.target (listener w.there.scopes.size u)) Any :=
    fun c' hc' => mirrors_forM hc' fun u _ c₁ _ hc₁ => mirrors_within (mirrors_listener hc₁ u)
  have hoperators : Mirrors w c
      (forM spec.operators fun o => within o.id (discard (operator w.here.scopes.size o)))
      (forM spec.operators fun o => within o.id (discard (operator w.there.scopes.size o)))
      fun _ _ c' => ∀ output, spec.output? = some output →
        (c'.scope.nodes.get? output.id).isSome := by
    have hone : ∀ c', w.Sound c' → ∀ o, Mirrors w c'
        (within o.id (discard (operator w.here.scopes.size o)))
        (within o.id (discard (operator w.there.scopes.size o)))
        fun _ _ c'' => (c''.scope.nodes.get? o.id).isSome :=
      fun c' hc' o => mirrors_within
        (mirrors_discard ((mirrors_operator hc' o).mono fun _ _ _ _ h => h.2))
    unfold Spec.output?
    cases spec.operators with
    | nil => exact mirrors_pure hc fun output ho => nomatch ho
    | cons first rest =>
      rw [List.forM_cons, List.forM_cons]
      refine mirrors_bind (hone c hc first) fun _ _ c₁ _ hc₁ hfirst => ?_
      have hrest : Mirrors w c₁
          (forM rest fun o => within o.id (discard (operator w.here.scopes.size o)))
          (forM rest fun o => within o.id (discard (operator w.there.scopes.size o))) Any :=
        mirrors_forM hc₁ fun o _ c₂ _ hc₂ => (hone c₂ hc₂ o).any
      refine hrest.mono fun _ _ c₂ hlater _ output ho => ?_
      -- It is the first operator that stands for the whole, and its entry stays.
      obtain rfl := Option.some.inj ho
      exact hlater.entries _ hfirst
  unfold specification
  refine mirrors_bind hoperators fun _ _ c₁ _ hc₁ hout => ?_
  refine mirrors_bind (hstreams c₁ hc₁) fun _ _ c₂ hlater hc₂ _ => ?_
  refine (hlisteners c₂ hc₂).mono fun _ _ c₃ hlater' _ output ho => ?_
  exact (hlater.trans hlater').entries _ (hout output ho)

/-! ## The whole copy -/

/-- Every error of a specification names an entry. -/
theorem ends_specification_error {scope : ScopeId} {spec : Spec} {s : Session} :
    Ends (specification scope spec) s (fun _ _ => True)
      fun e _ => ∃ id source, e = .inOperator id source := by
  have hforM : ∀ {γ : Type} (xs : List γ) (name : γ → EntryId) (f : γ → Compile Unit) (s : Session),
      Ends (forM xs fun x => within (name x) (f x)) s (fun _ _ => True)
        fun e _ => ∃ id source, e = .inOperator id source := by
    intro γ xs name f s
    induction xs generalizing s with
    | nil => exact trivial
    | cons x rest ih =>
      rw [List.forM_cons, ends_bind, ends_within]
      have hany : Ends (f x) s (fun _ _ => True) fun _ _ => True := by
        unfold Ends
        split <;> trivial
      refine hany.mono (fun _ s' _ => ih s') fun e _ _ => ?_
      -- The innermost entry is the one that is named.
      cases e with
      | inOperator id source => exact ⟨id, source, rfl⟩
      | _ => exact ⟨name x, _, rfl⟩
  unfold specification
  rw [ends_bind]
  refine (hforM _ _ _ s).mono (fun _ s₁ _ => ?_) fun _ _ h => h
  rw [ends_bind]
  exact (hforM _ _ _ s₁).mono (fun _ s₂ _ => hforM _ _ _ s₂) fun _ _ h => h

/-- What stands for a copy is a node that the copy has recorded. -/
theorem mirrors_copy (hc : w.Sound c) {spec : Spec} {output : OperatorSpec}
    (ho : spec.output? = some output) :
    Mirrors w c
      (specification w.here.scopes.size spec >>= fun _ => node w.here.scopes.size output.id)
      (specification w.there.scopes.size spec >>= fun _ => node w.there.scopes.size output.id)
      fun a b c' => b = w.between.handle a ∧ c'.scope.nodes.get? output.id = some a := by
  refine mirrors_bind (mirrors_specification hc spec) fun _ _ c₁ _ hc₁ hrecorded => ?_
  refine (mirrors_node hc₁ output.id).mono fun a b c₂ _ ⟨hb, hsame, hnode⟩ => ⟨hb, ?_⟩
  obtain ⟨h, hh⟩ := Option.isSome_iff_exists.mp (hrecorded output ho)
  rw [Twins.node?_hereWith hc₁, hh] at hnode
  rw [hsame, hh]
  exact hnode

/-- A copy that is compiled in full has an output, so every error is one of its entries. -/
theorem ends_copy_error (hc : w.Sound c) {spec : Spec} {output : OperatorSpec}
    (ho : spec.output? = some output) :
    Ends (specification w.here.scopes.size spec >>= fun _ => node w.here.scopes.size output.id)
      (w.hereWith c) (fun _ _ => True) fun e _ => ∃ id source, e = .inOperator id source := by
  rw [ends_bind]
  refine ((mirrors_specification hc spec).ends.and ends_specification_error).mono ?_ ?_
  · rintro _ _ ⟨⟨_, c₁, _, hc₁, hrecorded, rfl⟩, _⟩
    obtain ⟨h, hh⟩ := Option.isSome_iff_exists.mp (hrecorded output ho)
    have hnode : (w.hereWith c₁).scopes.node? w.here.scopes.size output.id = some h := by
      rw [Twins.node?_hereWith hc₁, hh]
      rfl
    rw [ends_node, hnode]
    exact ⟨fun _ _ => trivial, fun hnone => nomatch hnone⟩
  · exact fun _ _ h => h.2

end Compile

namespace Twins

variable {w : Twins} {subflow : Subflow} {index : Nat}

/-- A copy that has been begun below the scope, and that has got as far as this. -/
structure Begun (w : Twins) (index : Nat) (c : Copy) : Prop where
  sound : w.Sound c
  itemPath : c.scope.itemPath = w.here.scopes.itemPath w.parent ++ [index]
  depth : c.scope.itemPath.length ≤ w.here.depthLimit

/-- Two attempts to make a copy have ended alike. Either nothing has been done in either session, or
both have got as far with the copy: to the same error in one of its entries, or to the end, where
the node that stands for the copy is recorded. -/
inductive InstanceAlike (w : Twins) (subflow : Subflow) (index : Nat) :
    EStateM.Result CompileError Session Handle → EStateM.Result CompileError Session Handle →
      Prop where
  | refused {e : CompileError}
    (h : e = .emptySubflow ∨ e = .subflowDepthExceeded w.here.depthLimit) :
    InstanceAlike w subflow index (.error e w.here) (.error e w.there)
  | stopped {e : CompileError} {c : Copy} (begun : w.Begun index c)
    (h : ∃ id source, e = .inOperator id source) :
    InstanceAlike w subflow index (.error e (w.hereWith c))
      (.error (e.rename w.between) (w.thereWith c))
  | made {h : Handle} {c : Copy} {output : OperatorSpec} (begun : w.Begun index c)
    (stands : subflow.spec.output? = some output)
    (recorded : c.scope.nodes.get? output.id = some h) :
    InstanceAlike w subflow index (.ok h (w.hereWith c)) (.ok (w.between.handle h) (w.thereWith c))

/-- A fork in the second session joins the same empty copy as in the first. -/
theorem forked_there {above above' : Scope} (h : w.here.scopes.scope? w.parent = some above)
    (h' : w.there.scopes.scope? w.parent = some above') (index : Nat) :
    w.there.forked w.parent above' index =
      w.thereWith (.start w.parent above w.here.scopes.size index) := by
  have hpath : above'.itemPath = above.itemPath := by
    have := w.itemPath
    simpa only [ScopeTree.itemPath, h, h', Option.map_some, Option.getD_some] using this
  have hlibrary : above'.library = above.library := by
    have := w.library
    simpa only [ScopeTree.library?, h, h', Option.bind_some] using this
  have hscope : (Scope.fresh (some w.parent) (above.itemPath ++ [index]) (above.library.map fun b =>
      ⟨b.library, w.here.scopes.size, above.itemPath ++ [index]⟩)).rename w.between =
        Scope.fresh (some w.parent) (above'.itemPath ++ [index]) (above'.library.map fun b =>
          ⟨b.library, w.there.scopes.size, above'.itemPath ++ [index]⟩) := by
    rw [hpath, hlibrary, ← w.scope_new]
    simp only [Scope.rename, Scope.fresh, Option.map_some, w.scope_parent, Option.map_map]
    rfl
  rw [Session.forked_eq_joined, thereWith]
  simp only [Copy.start, Copy.rename, hscope]
  rfl

/-- Attempts to make a copy below the scope from which two sessions look the same end alike. -/
theorem instantiate_alike (h : subflow.scope = w.parent) (index : Nat) :
    w.InstanceAlike subflow index (Compile.instantiate subflow index w.here)
      (Compile.instantiate subflow index w.there) := by
  obtain ⟨above, habove⟩ : ∃ above, w.here.scopes.scope? w.parent = some above :=
    ⟨_, List.getElem?_eq_getElem w.known⟩
  obtain ⟨above', habove'⟩ : ∃ above', w.there.scopes.scope? w.parent = some above' :=
    ⟨_, List.getElem?_eq_getElem w.known_there⟩
  rw [Compile.instantiate_run, Compile.instantiate_run, h, w.itemPath, w.depthLimit, habove,
    habove']
  cases ho : subflow.spec.output? with
  | none => exact .refused (.inl rfl)
  | some output =>
    dsimp only
    split
    · exact .refused (.inr rfl)
    · rename_i hdepth
      have hpath : w.here.scopes.itemPath w.parent = above.itemPath := by
        rw [ScopeTree.itemPath, habove]
        rfl
      let start := Copy.start w.parent above w.here.scopes.size index
      have hstart : w.Sound start := Copy.sound_start above w.here.scopes.size index
      have hbegun : ∀ {c}, start.Later c → w.Sound c → w.Begun index c := by
        intro c hlater hc
        have hitem : c.scope.itemPath = w.here.scopes.itemPath w.parent ++ [index] := by
          rw [hlater.itemPath, hpath]
          rfl
        refine ⟨hc, hitem, ?_⟩
        rw [hitem, List.length_append]
        exact Nat.not_lt.mp hdepth
      have hmirrors := Compile.mirrors_copy hstart ho
      have herror := Compile.ends_copy_error hstart ho
      have hhere : w.here.forked w.parent above index = w.hereWith start :=
        Session.forked_eq_joined above index
      have hthere : w.there.forked w.parent above' index = w.thereWith start :=
        forked_there habove habove' index
      rw [hhere, hthere]
      unfold Compile.Mirrors at hmirrors
      unfold Compile.Ends at herror
      generalize (Compile.specification w.here.scopes.size subflow.spec >>= fun _ =>
        Compile.node w.here.scopes.size output.id) (w.hereWith start) = x,
        (Compile.specification w.there.scopes.size subflow.spec >>= fun _ =>
          Compile.node w.there.scopes.size output.id) (w.thereWith start) = y at hmirrors herror ⊢
      cases hmirrors with
      | ok later sound h =>
        rw [h.1]
        exact .made (hbegun later sound) ho h.2
      | error later sound h =>
        rw [h]
        exact .stopped (hbegun later sound) herror

end Twins

end Dataflow
