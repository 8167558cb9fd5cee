import Dataflow.Proofs.NodeDependencies
import Dataflow.Proofs.RequestOrder

/-!
# What resolved parameters look like

An array is resolved item by item, and an array among its items stands for itself. A nested
specification remembers the scope that it is resolved in. So a parameter that has been resolved in a
scope is settled in it (`Parameter.Settled`): it is no array or an array of such, and the nested
specifications in it were met in the scope.

`Yields` says what the result of a step is like, and `Settles` that a step leaves the parameters of
all nodes settled. The main result is `settles_specification`: compiling a specification in a scope
does. Of settled parameters it is enough to look at the items of arrays to find all nested
specifications (`Settled.subflows_eq`).
-/

namespace Dataflow

/-! ## Settled parameters -/

namespace Parameter

/-- The parameter is no array, and if it is a nested specification, it was met in the scope. -/
def SettledItem (scope : ScopeId) (p : Parameter) : Prop :=
  p.isArray = false ∧ ∀ s, p = .subflow s → s.scope = scope

/-- The parameter looks as if it had been resolved in the scope. -/
inductive Settled (scope : ScopeId) : Parameter → Prop where
  | item {p : Parameter} (h : p.SettledItem scope) : Settled scope p
  | array {items : List Parameter} (h : ∀ p ∈ items, p.SettledItem scope) :
    Settled scope (.array items)

variable {scope : ScopeId} {p : Parameter}

theorem settledItem_ofFunction (f : Function) : (ofFunction f).SettledItem scope := by
  cases f with
  | accessor f => exact ⟨rfl, fun _ h => nomatch h⟩
  | comparator c => exact ⟨rfl, fun _ h => nomatch h⟩

theorem picked_subflow_of_not_array (h : p.isArray = false) :
    (p.picked subflow?).map Prod.snd = p.subflow?.toList := by
  rw [picked, leaves_of_not_array h]
  cases p <;> rfl

/-- All nested specifications in a settled parameter are found among its items. -/
theorem Settled.subflows_eq (h : p.Settled scope) :
    p.subflows = (p.picked subflow?).map Prod.snd := by
  cases h with
  | item h =>
    rw [picked_subflow_of_not_array h.1]
    cases p with
    | array items => exact nomatch h.1
    | _ => rfl
  | array h =>
    rename_i items
    show items.filterMap subflow? = _
    rw [picked_array, map_snd_placed, List.filterMap_eq_flatMap_toList]
    exact List.flatMap_congr fun q hq => (picked_subflow_of_not_array (h q hq).1).symm

/-- All nested specifications in a settled parameter were met in the scope. -/
theorem Settled.scope_eq (h : p.Settled scope) {s : Subflow} (hs : s ∈ p.subflows) :
    s.scope = scope := by
  cases h with
  | item h =>
    cases p with
    | subflow t =>
      obtain rfl := List.mem_singleton.mp hs
      exact h.2 s rfl
    | array items => exact nomatch h.1
    | _ => exact nomatch hs
  | array h =>
    rename_i items
    obtain ⟨q, hq, hsome⟩ := List.mem_filterMap.mp (show s ∈ items.filterMap subflow? from hs)
    cases q with
    | subflow t =>
      obtain rfl := Option.some.inj hsome
      exact (h _ hq).2 t rfl
    | _ => exact nomatch hsome

end Parameter

namespace Parameters

/-- All parameters are settled in the scope. -/
def Settled (scope : ScopeId) (params : Parameters) : Prop :=
  ∀ p ∈ params.values, p.Settled scope

variable {scope : ScopeId} {params : Parameters}

theorem settled_empty (scope : ScopeId) : Settled scope .empty := fun _ h => nomatch h

theorem Settled.insert (h : Settled scope params) (name : String) {p : Parameter}
    (hp : p.Settled scope) : Settled scope (params.insert name p) := by
  intro q hq
  obtain rfl | hq := Table.mem_values_insert hq
  · exact hp
  · exact h q hq

/-- All nested specifications in settled parameters are found among the items of arrays. -/
theorem Settled.subflows_eq (h : Settled scope params) :
    params.subflows = (params.occurrences Parameter.subflow?).map Prod.snd := by
  rw [map_snd_occurrences, subflows]
  refine List.flatMap_congr fun e he => ?_
  rw [(h e.2 (List.mem_map_of_mem he)).subflows_eq]

theorem Settled.scope_eq (h : Settled scope params) {name : String} {s : Subflow}
    (hs : (name, s) ∈ params.subflows) : s.scope = scope := by
  obtain ⟨e, he, hs⟩ := List.mem_flatMap.mp hs
  obtain ⟨t, ht, heq⟩ := List.mem_map.mp hs
  cases heq
  exact (h e.2 (List.mem_map_of_mem he)).scope_eq ht

end Parameters

namespace Compile

variable {α β : Type} {scope : ScopeId}

/-! ## Results of steps -/

/-- Where the step succeeds, its result is as described. -/
def Yields (m : Compile α) (result : α → Prop) : Prop :=
  ∀ s, Ends m s (fun a _ => result a) fun _ _ => True

section

variable {m : Compile α} {f : α → Compile β} {mid : α → Prop} {result : β → Prop}

theorem yields_pure {b : β} (h : result b) : Yields (pure b) result := fun _ => h

theorem yields_throw (e : CompileError) : Yields (throw e : Compile β) result := fun _ => trivial

theorem yields_bind (hm : Yields m mid) (hf : ∀ a, mid a → Yields (f a) result) :
    Yields (m >>= f) result := by
  intro s
  rw [ends_bind]
  exact (hm s).mono (fun a s' h => hf a h s') fun _ _ h => h

/-- Nothing need be known of the result of a step before. -/
theorem yields_after (m : Compile α) (hf : ∀ a, Yields (f a) result) :
    Yields (m >>= f) result := by
  have hm : Yields m fun _ => True := by
    intro s
    unfold Ends
    cases m s <;> trivial
  exact yields_bind hm fun a _ => hf a

theorem yields_mapM {γ : Type} {xs : List γ} {g : γ → Compile β} (h : ∀ x, Yields (g x) result) :
    Yields (xs.mapM g) fun bs => ∀ b ∈ bs, result b := by
  induction xs with
  | nil => exact yields_pure fun _ hb => nomatch hb
  | cons x rest ih =>
    rw [List.mapM_cons]
    refine yields_bind (h x) fun b hb => yields_bind ih fun bs hbs => yields_pure fun c hc => ?_
    obtain rfl | hc := List.mem_cons.mp hc
    · exact hb
    · exact hbs c hc

end

/-! ## Resolving -/

theorem yields_resolveReference (r : Reference) :
    Yields (resolveReference scope r) (Parameter.SettledItem scope) := by
  cases r with
  | operator id => exact yields_after _ fun _ => yields_pure ⟨rfl, fun _ h => nomatch h⟩
  | expression e =>
    refine yields_after _ fun _ => yields_after _ fun f => yields_pure ?_
    exact Parameter.settledItem_ofFunction f
  | field path name =>
    exact yields_after _ fun f => yields_pure (Parameter.settledItem_ofFunction f)
  | compare fields directions =>
    exact yields_after _ fun f => yields_pure (Parameter.settledItem_ofFunction f)
  | subflow spec =>
    refine yields_pure ⟨rfl, fun s h => ?_⟩
    cases h
    rfl

theorem yields_resolveOne (v : Json) :
    Yields (resolveOne scope v) (Parameter.SettledItem scope) := by
  refine yields_after _ fun r => ?_
  cases r with
  | some r => exact yields_resolveReference r
  | none => exact yields_pure ⟨rfl, fun _ h => nomatch h⟩

theorem yields_resolve (v : Json) : Yields (resolve scope v) (Parameter.Settled scope) := by
  have hone : Yields (resolveOne scope v) (Parameter.Settled scope) := fun s =>
    (yields_resolveOne v s).mono (fun _ _ h => .item h) fun _ _ h => h
  cases v with
  | array items =>
    -- The items are resolved as single values, so the array goes no deeper.
    exact yields_bind (yields_mapM yields_resolveOne) fun ps hps => yields_pure (.array hps)
  | _ => exact hone

theorem yields_resolveInto {params : Parameters} (members : List (String × Json))
    (h : Parameters.Settled scope params) :
    Yields (resolveInto scope params members) (Parameters.Settled scope) := by
  induction params, members using resolveInto.induct scope with
  | case1 params =>
    rw [resolveInto]
    exact yields_pure h
  | case2 params name v rest ihNested ihRest =>
    have hbrought : Yields (resolveBrought scope params v) (Parameters.Settled scope) := by
      unfold resolveBrought
      split
      · rename_i nested hn
        exact ihNested nested hn h
      · exact yields_pure h
    rw [resolveInto_cons]
    exact yields_bind hbrought fun params' h' => yields_bind (yields_resolve v) fun p hp =>
      ihRest params' p (h'.insert name hp)

theorem yields_resolveBrought {params : Parameters} (v : Json)
    (h : Parameters.Settled scope params) :
    Yields (resolveBrought scope params v) (Parameters.Settled scope) := by
  unfold resolveBrought
  split
  · exact yields_resolveInto _ h
  · exact yields_pure h

theorem yields_resolveFunction (role : Role) {params : Parameters} (v : Json)
    (h : Parameters.Settled scope params) :
    Yields (resolveFunction scope role params v) fun r => Parameters.Settled scope r.2 := by
  refine yields_bind (yields_resolveBrought v h) fun params' h' => yields_after _ fun p => ?_
  cases p with
  | accessor f => exact yields_pure h'
  | _ => exact yields_throw _

theorem yields_resolveValue (spec : OperatorSpec) :
    Yields (resolveValue scope spec) fun r => Parameters.Settled scope r.1 := by
  have hempty := Parameters.settled_empty scope
  unfold resolveValue
  split
  · exact yields_pure hempty
  · split
    · exact yields_bind (yields_resolveInto _ hempty) fun params h => yields_pure h
    · exact yields_pure hempty

theorem yields_behavior (spec : OperatorSpec) {params : Parameters} (initial : Option Json)
    (h : Parameters.Settled scope params) :
    Yields (behavior scope spec params initial) fun r => Parameters.Settled scope r.2 := by
  refine yields_after _ fun s => ?_
  cases transform? spec s.transforms with
  | some t => exact yields_pure h
  | none =>
    cases spec.update with
    | none => exact yields_pure h
    | some v => exact yields_bind (yields_resolveFunction .update v h) fun r hr => yields_pure hr

end Compile

/-! ## Nodes with settled parameters -/

/-- Whatever the request makes has settled parameters. -/
def Request.Settled (scope : ScopeId) (r : Request) : Prop :=
  ∀ d, r.declaration? = some d → Parameters.Settled scope d.params

/-- All nodes have settled parameters. -/
def Session.Settled (scope : ScopeId) (s : Session) : Prop :=
  ∀ d ∈ s.graph.declarations, Parameters.Settled scope d.params

theorem Request.settled_of_not_making {r : Request} (scope : ScopeId) (h : r.isMaking = false) :
    r.Settled scope := by
  intro d hd
  cases r with
  | add => exact nomatch h
  | stream => exact nomatch h
  | _ => exact nomatch hd

namespace Session

variable {s s' : Session} {scope : ScopeId} {calls : List Request}

theorem Settled.told (h : s.Settled scope) (htold : s.Told calls s')
    (hcalls : ∀ r ∈ calls, r.Settled scope) : s'.Settled scope := by
  intro d hd
  rw [htold.graph] at hd
  obtain hd | ⟨r, hr, hd⟩ := Graph.mem_declarations_foldl hd
  · exact h d hd
  · exact hcalls r hr d hd

theorem Settled.of_untouched (h : s.Settled scope) (hq : s.Untouched s') : s'.Settled scope :=
  h.told hq.told fun _ hr => nomatch hr

end Session

namespace Compile

variable {α β : Type} {scope : ScopeId}

/-- If all nodes have settled parameters, they have them after the step, too, if it succeeds. -/
def Settles (scope : ScopeId) (m : Compile α) : Prop :=
  ∀ s : Session, s.Settled scope → Ends m s (fun _ s' => s'.Settled scope) fun _ _ => True

section

variable {m : Compile α} {f : α → Compile β}

theorem settles_quiet (hm : Quiet m) : Settles scope m := fun s hs =>
  (hm s).mono (fun _ _ h => hs.of_untouched h) fun _ _ _ => trivial

theorem settles_bind (hm : Settles scope m) (hf : ∀ a, Settles scope (f a)) :
    Settles scope (m >>= f) := by
  intro s hs
  rw [ends_bind]
  exact (hm s hs).mono (fun a s' h => hf a s' h) fun _ _ h => h

/-- What follows a quiet step may count on its result. -/
theorem settles_bind_yields {mid : α → Prop} (hq : Quiet m) (hm : Yields m mid)
    (hf : ∀ a, mid a → Settles scope (f a)) : Settles scope (m >>= f) := by
  intro s hs
  rw [ends_bind]
  refine ((hq s).and (hm s)).mono ?_ fun _ _ _ => trivial
  exact fun a s' ⟨hsame, ha⟩ => hf a ha s' (hs.of_untouched hsame)

theorem settles_forM {γ : Type} {xs : List γ} {g : γ → Compile Unit}
    (h : ∀ x, Settles scope (g x)) : Settles scope (forM xs g) := by
  induction xs with
  | nil => exact settles_quiet (quiet_pure ())
  | cons x rest ih =>
    rw [List.forM_cons]
    exact settles_bind (h x) fun _ => ih

theorem settles_discard (hm : Settles scope m) : Settles scope (discard m) := fun s hs =>
  ends_discard.mpr (hm s hs)

theorem settles_within (id : EntryId) (hm : Settles scope m) : Settles scope (within id m) :=
  fun s hs => ends_within.mpr (hm s hs)

theorem settles_send {r : Request} (hr : r.Settled scope) : Settles scope (send r) := by
  intro s hs
  have hcalls : ∀ q ∈ [r], q.Settled scope := fun q hq => List.mem_singleton.mp hq ▸ hr
  rw [ends_send]
  exact ⟨fun _ => hs.told (s.told_sent r) hcalls, fun _ _ => trivial⟩

end

theorem settles_setNode (id : EntryId) (handle : Handle) :
    Settles scope (write (·.setNode scope id handle)) := by
  intro s hs
  refine (ends_setNode_told id handle).mono (fun _ s' h => ?_) fun _ _ _ => trivial
  exact hs.told h fun _ hr => nomatch hr

/-! ## Compiling -/

theorem settles_register (spec : OperatorSpec) (handle : Handle) :
    Settles scope (register scope spec handle) := by
  intro s hs
  refine (ends_register spec handle).mono ?_ fun _ _ _ => trivial
  rintro ⟨⟩ s' ⟨-, -, loads, hloads, htold⟩
  exact hs.told htold fun r hr => r.settled_of_not_making scope (isMaking_of_mem hloads r hr)

theorem settles_operator (spec : OperatorSpec) : Settles scope (operator scope spec) := by
  unfold operator
  refine settles_bind_yields (quiet_resolveValue spec) (yields_resolveValue spec) ?_
  rintro ⟨params, initial⟩ h
  refine settles_bind_yields (quiet_resolveInto params _) (yields_resolveInto _ h) ?_
  intro params h
  refine settles_bind_yields (quiet_behavior spec params initial) (yields_behavior spec _ h) ?_
  rintro ⟨behavior, params⟩ h
  have hadd : Request.Settled scope (.add behavior params spec.react) := by
    intro d hd
    cases hd
    exact h
  refine settles_bind (settles_send hadd) fun handle => ?_
  exact settles_bind (settles_register spec handle) fun _ => settles_quiet (quiet_pure handle)

theorem settles_stream (spec : StreamSpec) : Settles scope (stream scope spec) := by
  unfold stream
  refine settles_bind (settles_quiet (quiet_parent spec.stream)) fun parent => ?_
  -- What is left to do once the filter is there.
  have hsend : ∀ (filter : Option Accessor) (params : Parameters),
      Parameters.Settled scope params →
      Settles scope (do
        let handle ← send (.stream ⟨spec.source, spec.kind, parent, filter⟩ params)
        write (·.setNode scope spec.id handle)
        return handle) := by
    intro filter params h
    have hstream : Request.Settled scope
        (.stream ⟨spec.source, spec.kind, parent, filter⟩ params) := by
      intro d hd
      cases hd
      exact h
    refine settles_bind (settles_send hstream) fun handle => ?_
    exact settles_bind (settles_setNode spec.id handle) fun _ => settles_quiet (quiet_pure handle)
  have hempty := Parameters.settled_empty scope
  cases spec.filter with
  | none => exact hsend none .empty hempty
  | some v =>
    exact settles_bind_yields (quiet_resolveFunction .filter .empty v)
      (yields_resolveFunction .filter v hempty) fun r hr => hsend (some r.1) r.2 hr

/-- A listener makes no node. -/
theorem settles_listener (spec : UpdateSpec) : Settles scope (listener scope spec) := by
  intro s hs
  refine Ends.mono (asks_listener spec s) ?_ fun _ _ _ => trivial
  rintro ⟨⟩ s' ⟨_, htold, _, ⟨_, _, _, _, -, rfl⟩, rfl⟩
  refine hs.told htold fun r hr => ?_
  obtain rfl := List.mem_singleton.mp hr
  exact Request.settled_of_not_making scope rfl

/-- Compiling a specification in a scope makes nodes with parameters that are settled in it. -/
theorem settles_specification (spec : Spec) : Settles scope (specification scope spec) := by
  unfold specification
  refine settles_bind (settles_forM fun o => settles_within _ (settles_discard
    (settles_operator o))) fun _ => ?_
  refine settles_bind (settles_forM fun t => settles_within _ (settles_discard
    (settles_stream t))) fun _ => ?_
  exact settles_forM fun u => settles_within _ (settles_listener u)

end Compile

end Dataflow
