import Dataflow.Proofs.SessionChanges

/-!
# Every step of a compilation is a sequence of changes

`Works strict scope given m found` says of a step `m` in a scope that, however it ends, it has made
`Changes strict scope` and no others. Where the session is closed and has the nodes in `given`, the
result refers to nodes of the session only (`found`), and in an existing scope the step does not
fail over a scope or a node that is missing. `Works` passes through every way of putting steps
together, so each function of `Compile` has one lemma, in the order in which they call each other.
-/

namespace Dataflow

/-- Whether an error says that a scope or a node is missing, or that the graph is inconsistent,
rather than that something is wrong with what is compiled. -/
def CompileError.isInternal : CompileError → Bool
  | .scopeNotFound _ => true
  | .graph (.load ..) => false
  | .graph _ => true
  | .inOperator _ source => source.isInternal
  | _ => false

/-- Whether an error speaks of what is compiled alone, and names no scope, no node and no entry
that it was raised in. -/
def CompileError.isPlain : CompileError → Bool
  | .scopeNotFound _ => false
  | .graph _ => false
  | .inOperator .. => false
  | _ => true

theorem CompileError.isInternal_of_isPlain {e : CompileError} (h : e.isPlain = true) :
    e.isInternal = false := by
  cases e with
  | scopeNotFound id => exact nomatch h
  | graph source => exact nomatch h
  | inOperator id source => exact nomatch h
  | _ => rfl

theorem CompileError.isInternal_within (id : EntryId) (e : CompileError) :
    (CompileError.within id e).isInternal = e.isInternal := by
  cases e <;> rfl

namespace Compile

/-- The step only makes changes in the scope, from existing nodes to existing nodes. -/
def Works {α : Type} (strict : Prop) (scope : ScopeId) (given : List Handle) (m : Compile α)
    (found : α → List Handle) : Prop :=
  ∀ s : Session, (strict → s.Closed ∧ s.Has given) →
    Ends m s
      (fun a s' => Changes strict scope s s' ∧ (strict → s'.Has (found a)))
      (fun e s' => Changes strict scope s s' ∧
        (strict → scope < s.scopes.size → e.isInternal = false))

variable {strict : Prop} {scope : ScopeId} {α β : Type} {given : List Handle}

/-! ## Putting steps together -/

theorem works_pure {a : α} {found : α → List Handle} (h : found a ⊆ given) :
    Works strict scope given (pure a) found := by
  intro s hs
  rw [ends_pure]
  exact ⟨.refl, fun hstrict node hn => (hs hstrict).2 node (h hn)⟩

theorem works_throw {e : CompileError} {found : α → List Handle} (h : e.isInternal = false) :
    Works strict scope given (throw e) found := by
  intro s _
  rw [ends_throw]
  exact ⟨.refl, fun _ _ => h⟩

/-- Fewer nodes may be given, and fewer found. -/
theorem Works.mono {m : Compile α} {given' : List Handle} {found found' : α → List Handle}
    (h : Works strict scope given m found) (hg : given ⊆ given') (hf : ∀ a, found' a ⊆ found a) :
    Works strict scope given' m found' := by
  intro s hs
  refine (h s fun hstrict => ⟨(hs hstrict).1, fun n hn => (hs hstrict).2 n (hg hn)⟩).mono ?_ ?_
  · exact fun a s' ⟨hc, hfound⟩ => ⟨hc, fun hstrict n hn => hfound hstrict n (hf a hn)⟩
  · exact fun _ _ h => h

/-- What follows a step is given what the step has found, and all that the step was given. -/
theorem works_bind {m : Compile α} {f : α → Compile β} {mid : α → List Handle}
    {found : β → List Handle} (hm : Works strict scope given m mid)
    (hf : ∀ a, Works strict scope (mid a ++ given) (f a) found) :
    Works strict scope given (m >>= f) found := by
  intro s hs
  rw [ends_bind]
  refine (hm s hs).mono ?_ fun e s' h => h
  intro a s₁ ⟨hc₁, hmid⟩
  -- The session in between is closed too, and still has all that was given.
  have hs₁ : strict → s₁.Closed ∧ s₁.Has (mid a ++ given) := fun hstrict =>
    ⟨hc₁.closed hstrict (hs hstrict).1,
      Session.Has.append.mpr ⟨hmid hstrict, (hs hstrict).2.mono hc₁.size_le⟩⟩
  refine (hf a s₁ hs₁).mono ?_ ?_
  · exact fun b s₂ ⟨hc₂, hfound⟩ => ⟨hc₁.trans hc₂, hfound⟩
  · intro e s₂ ⟨hc₂, he⟩
    refine ⟨hc₁.trans hc₂, fun hstrict hlt => he hstrict ?_⟩
    -- The scope exists in between if it did at first.
    rw [hc₁.scopes_size]
    exact hlt

theorem works_ofExcept {x : Except CompileError α} {found : α → List Handle}
    (ha : ∀ a, x = .ok a → found a ⊆ given) (he : ∀ e, x = .error e → e.isInternal = false) :
    Works strict scope given (MonadExcept.ofExcept x) found := by
  cases x with
  | ok a => exact works_pure (ha a rfl)
  | error e => exact works_throw (he e rfl)

theorem works_map {m : Compile α} {f : α → β} {found : β → List Handle}
    (h : Works strict scope given m fun a => found (f a)) :
    Works strict scope given (f <$> m) found := by
  intro s hs
  rw [ends_map]
  exact h s hs

theorem works_discard {m : Compile α} {found : α → List Handle}
    (h : Works strict scope given m found) :
    Works strict scope given (discard m) fun _ => [] := by
  refine works_map (h.mono (fun _ hn => hn) fun a => ?_)
  exact List.nil_subset _

theorem works_within {id : EntryId} {m : Compile α} {found : α → List Handle}
    (h : Works strict scope given m found) :
    Works strict scope given (within id m) found := by
  intro s hs
  rw [ends_within]
  refine (h s hs).mono (fun _ _ h => h) ?_
  intro e s' ⟨hc, he⟩
  rw [CompileError.isInternal_within]
  exact ⟨hc, he⟩

theorem works_forM {γ : Type} {xs : List γ} {f : γ → Compile Unit}
    (h : ∀ x ∈ xs, Works strict scope given (f x) fun _ => []) :
    Works strict scope given (forM xs f) fun _ => [] := by
  induction xs with
  | nil => exact works_pure (List.nil_subset _)
  | cons x rest ih =>
    rw [List.forM_cons]
    refine works_bind (h x List.mem_cons_self) fun _ => ?_
    exact ih fun y hy => h y (List.mem_cons_of_mem _ hy)

theorem works_forM_option {γ : Type} {x : Option γ} {f : γ → Compile Unit}
    (h : ∀ a, x = some a → Works strict scope given (f a) fun _ => []) :
    Works strict scope given (forM x f) fun _ => [] := by
  cases x with
  | none => exact works_pure (List.nil_subset _)
  | some a => exact h a rfl

/-! ## Elementary steps -/

/-- A request that checks and registers existing nodes only fails over a resource. -/
theorem works_send {r : Request} (other : r.isLink = false) (hc : r.checked ⊆ given)
    (hu : r.unchecked ⊆ given) : Works strict scope given (send r) fun h => [h] := by
  intro s hs
  have hsent : Changes strict scope s (s.sent r) :=
    .single (.request other fun hstrict n hn => (hs hstrict).2 n (hu hn))
  rw [ends_send]
  constructor
  · intro hok
    refine ⟨hsent, fun _ => Session.Has.singleton.mpr ?_⟩
    have := Graph.answer_lt_size hok
    simpa [Session.sent, Graph.after, hok] using this
  · intro e he
    refine ⟨hsent, fun hstrict _ => ?_⟩
    obtain ⟨node, hmem, -, hge⟩ | ⟨node, resource, rfl⟩ := Graph.refusal?_eq_some he
    · -- All that is checked is given, so nothing is missing.
      exact absurd ((hs hstrict).2 node (hc hmem)) (Nat.not_lt.mpr hge)
    · rfl

theorem works_record (slot : Slot) {handle : Handle} (hg : handle ∈ given) :
    Works strict scope given (write (·.modify scope (slot.put handle))) fun _ => [] := by
  intro s hs
  rw [ends_modify]
  constructor
  · intro hlt
    refine ⟨.single (.record slot hlt fun hstrict => ?_), fun _ => Session.Has.nil _⟩
    exact Session.Has.singleton.mpr ((hs hstrict).2 handle hg)
  · exact fun hge => ⟨.refl, fun _ hlt => absurd hlt (Nat.not_lt.mpr hge)⟩

end Compile

/-- What is read along the chain of a scope stands in some scope. -/
theorem ScopeTree.lookup_eq_some {α : Type} {t : ScopeTree} {id : ScopeId}
    {pick : Scope → Option α} {a : α} (h : t.lookup id pick = some a) :
    ∃ holder ∈ t.chain id, ∃ sc, t.scope? holder = some sc ∧ pick sc = some a := by
  obtain ⟨holder, hmem, hpick⟩ := List.exists_of_findSome?_eq_some h
  obtain ⟨sc, hsc, hpick⟩ := Option.bind_eq_some_iff.mp hpick
  exact ⟨holder, hmem, sc, hsc, hpick⟩

/-- In a closed session an entry is recorded with a node that exists. -/
theorem Session.Closed.node?_lt {s : Session} (hs : s.Closed) {scope : ScopeId} {id : EntryId}
    {handle : Handle} (h : s.scopes.node? scope id = some handle) : handle < s.graph.size := by
  obtain ⟨holder, -, sc, hsc, hget⟩ := ScopeTree.lookup_eq_some h
  refine hs.scopes sc (List.mem_of_getElem? hsc) handle ?_
  exact Scope.mem_handles.mpr (.inl (Table.mem_values_of_get? hget))

namespace Compile

theorem works_node {id : EntryId} : Works strict scope given (node scope id) fun h => [h] := by
  intro s hs
  rw [ends_node]
  constructor
  · exact fun h hh => ⟨.refl, fun hstrict => Session.Has.singleton.mpr ((hs hstrict).1.node?_lt hh)⟩
  · exact fun _ => ⟨.refl, fun _ _ => rfl⟩

/-- A shared function is the one that is seen from the scope, or a new one. -/
theorem ends_shared {s : Session} {key : MemoKey} {make : Nat → Except CompileError Function}
    {done : Function → Session → Prop} {failed : CompileError → Session → Prop} :
    Ends (shared scope key make) s done failed ↔
      match s.scopes.function? scope key with
      | some f => done f s
      | none =>
        match make s.nextSerial with
        | .error e => failed e s.counted
        | .ok f =>
          (scope < s.scopes.size → done f (s.counted.edited scope (Scope.share key f))) ∧
            (s.scopes.size ≤ scope → failed (.scopeNotFound scope) s.counted) := by
  unfold shared
  rw [ends_bind, ends_get]
  cases s.scopes.function? scope key with
  | some f => exact Iff.rfl
  | none =>
    simp only [ends_bind, ends_freshSerial, ends_ofExcept]
    cases make s.nextSerial with
    | error e => simp; rfl
    | ok f =>
      simp only [Except.ok.injEq, forall_eq', reduceCtorEq, false_implies, implies_true, and_true]
      exact ends_modify

theorem works_mapM_option {γ : Type} {x : Option γ} {f : γ → Compile α} {found : α → List Handle}
    (h : ∀ a, x = some a → Works strict scope given (f a) found) :
    Works strict scope given (x.mapM f) fun b => b.toList.flatMap found := by
  cases x with
  | none => exact works_pure (List.nil_subset _)
  | some a =>
    refine works_map ((h a rfl).mono (fun _ hn => hn) fun b => ?_)
    simp

theorem works_mapM {γ : Type} {xs : List γ} {f : γ → Compile α} {found : α → List Handle}
    (h : ∀ x ∈ xs, Works strict scope given (f x) found) :
    Works strict scope given (xs.mapM f) fun as => as.flatMap found := by
  induction xs with
  | nil => exact works_pure (List.nil_subset _)
  | cons x rest ih =>
    rw [List.mapM_cons]
    refine works_bind (h x List.mem_cons_self) fun a => ?_
    have hrest := ih fun y hy => h y (List.mem_cons_of_mem _ hy)
    refine works_bind (hrest.mono (List.subset_append_right _ _) fun _ _ hn => hn) fun as => ?_
    refine works_pure fun n hn => ?_
    rw [List.flatMap_cons, List.mem_append] at hn
    simp only [List.mem_append]
    exact hn.elim (fun h => .inr (.inl h)) .inl

/-! ## Resolving -/

/-- All errors of a computation speak of what is compiled. -/
def Mild (x : Except CompileError α) : Prop := ∀ e, x = .error e → e.isInternal = false

/-- All errors of a computation are plain. -/
def Plain (x : Except CompileError α) : Prop := ∀ e, x = .error e → e.isPlain = true

theorem Plain.mild {x : Except CompileError α} (h : Plain x) : Mild x :=
  fun e he => CompileError.isInternal_of_isPlain (h e he)

theorem plain_ok {a : α} : Plain (.ok a : Except CompileError α) := fun _ h => nomatch h

theorem plain_error {e : CompileError} (h : e.isPlain = true) :
    Plain (.error e : Except CompileError α) := by
  intro e' he
  rw [← Except.error.inj he]
  exact h

theorem plain_bind {x : Except CompileError α} {f : α → Except CompileError β} (hx : Plain x)
    (hf : ∀ a, Plain (f a)) : Plain (x >>= f) := by
  cases x with
  | ok a => exact hf a
  | error e => exact plain_error (hx e rfl)

theorem plain_map {x : Except CompileError α} {f : α → β} (hx : Plain x) : Plain (x.map f) := by
  cases x with
  | ok a => exact plain_ok
  | error e => exact plain_error (hx e rfl)

end Compile

namespace Reference

open Compile

theorem functionName_plain (v : Option Json) : Plain (functionName v) := by
  unfold functionName
  split
  · exact plain_ok
  · exact plain_ok
  · exact plain_ok
  · exact plain_error rfl

theorem strings_plain (marker : String) (items : List Json) : Plain (strings marker items) := by
  fun_induction strings marker items with
  | case1 => exact plain_ok
  | case2 s rest ih => exact plain_map ih
  | case3 => exact plain_error rfl

theorem stringList_plain (marker : String) (v : Option Json) : Plain (stringList marker v) := by
  unfold stringList
  split
  · exact plain_ok
  · exact plain_ok
  · exact plain_ok
  · exact strings_plain marker _
  · exact plain_error rfl

theorem directions_plain (names : List String) : Plain (directions names) := by
  induction names with
  | nil => exact plain_ok
  | cons s rest ih =>
    unfold directions
    split
    · exact plain_map ih
    · exact plain_error rfl

theorem ofRef_plain (v : Json) : Plain (ofRef v) := by
  unfold ofRef
  split
  · exact plain_ok
  · exact plain_error rfl

theorem ofExpr_plain (v text : Json) : Plain (ofExpr v text) := by
  unfold ofExpr
  split
  · refine plain_bind (stringList_plain _ _) fun fields => ?_
    exact plain_bind (functionName_plain _) fun name => plain_ok
  · exact plain_error rfl

theorem ofField_plain (v path : Json) : Plain (ofField v path) := by
  unfold ofField
  split
  · exact plain_bind (functionName_plain _) fun name => plain_ok
  · exact plain_error rfl

theorem ofCompare_plain (v fields : Json) : Plain (ofCompare v fields) := by
  unfold ofCompare
  refine plain_bind (stringList_plain _ _) fun fields => ?_
  refine plain_bind (stringList_plain _ _) fun names => ?_
  exact plain_bind (directions_plain _) fun directions => plain_ok

theorem ofSubflow_plain (v : Json) : Plain (ofSubflow v) := by
  unfold ofSubflow
  split
  · split
    · exact plain_ok
    · exact plain_error rfl
  · exact plain_error rfl

/-- Decoding a reference fails only over the value. -/
theorem decode_plain (v : Json) : Plain (decode v) := by
  unfold decode
  split
  · exact plain_map (ofRef_plain _)
  · split
    · exact plain_map (ofExpr_plain _ _)
    · split
      · exact plain_map (ofField_plain _ _)
      · split
        · exact plain_map (ofCompare_plain _ _)
        · split
          · exact plain_map (ofSubflow_plain _)
          · exact plain_ok

end Reference

theorem SortKey.ofFields_plain (paths : List String) (directions : List Direction) :
    Compile.Plain (SortKey.ofFields paths directions) := by
  induction paths generalizing directions with
  | nil => exact Compile.plain_ok
  | cons path rest ih =>
    refine Compile.plain_bind ?_ fun _ => Compile.plain_bind (ih _) fun _ => Compile.plain_ok
    unfold SortKey.ofField
    split
    · exact Compile.plain_ok
    · exact Compile.plain_error rfl

theorem Comparator.ofFields_plain (serial : Nat) (fields : List String)
    (directions : List Direction) : Compile.Plain (Comparator.ofFields serial fields directions) :=
  Compile.plain_map (SortKey.ofFields_plain fields directions)

theorem Accessor.ofField_plain (serial : Nat) (path : String) (name : Option String) :
    Compile.Plain (Accessor.ofField serial path name) := by
  unfold Accessor.ofField
  split
  · exact Compile.plain_ok
  · exact Compile.plain_error rfl

theorem Accessor.ofExpression_plain (serial : Nat) (text : String) (fields : List String)
    (name : Option String) (library : Option Binding) :
    Compile.Plain (Accessor.ofExpression serial text fields name library) := by
  unfold Accessor.ofExpression
  split
  · exact Compile.plain_ok
  · exact Compile.plain_error rfl

theorem Parameters.mem_nodes {params : Parameters} {h : Handle} :
    h ∈ params.nodes ↔ ∃ p ∈ params.values, h ∈ p.handles := by
  simp only [nodes, handles, Table.values, List.map_flatMap, List.map_map, List.mem_flatMap,
    List.mem_map, Function.comp_apply]
  constructor
  · rintro ⟨e, he, h, hh, rfl⟩
    exact ⟨e.2, ⟨e, he, rfl⟩, hh⟩
  · rintro ⟨p, ⟨e, he, rfl⟩, hh⟩
    exact ⟨e, he, h, hh, rfl⟩

/-- A parameter that is set is the only one that refers to something new. -/
theorem Parameters.nodes_insert_subset (params : Parameters) (name : String) (p : Parameter) :
    Parameters.nodes (params.insert name p) ⊆ p.handles ++ params.nodes := by
  intro h hh
  obtain ⟨q, hq, hmem⟩ := mem_nodes.mp hh
  rw [List.mem_append]
  obtain rfl | hq := Table.mem_values_insert hq
  · exact .inl hmem
  · exact .inr (mem_nodes.mpr ⟨q, hq, hmem⟩)

namespace Compile

/-- A function is shared by changes of the scope, if it is made as its key says. -/
theorem ends_shared_changes {s : Session} {key : MemoKey}
    {make : Nat → Except CompileError Function}
    (hok : ∀ f, make s.nextSerial = .ok f →
      f.serial = s.nextSerial ∧ f.Fits (s.scopes.library? scope) key)
    (hmild : Mild (make s.nextSerial)) :
    Ends (shared scope key make) s (fun _ s' => Changes strict scope s s')
      (fun e s' => Changes strict scope s s' ∧
        (strict → scope < s.scopes.size → e.isInternal = false)) := by
  rw [ends_shared]
  cases hf : s.scopes.function? scope key with
  | some f => exact .refl
  | none =>
    -- A serial number is taken before it is known whether there is a function to share.
    cases hm : make s.nextSerial with
    | error e => exact ⟨.single .count, fun _ _ => hmild e hm⟩
    | ok f =>
      obtain ⟨hserial, hfits⟩ := hok f hm
      refine ⟨fun hlt => .single (.share hlt hf hserial hfits), fun hge => ?_⟩
      exact ⟨.single .count, fun _ hlt => absurd hlt (Nat.not_lt.mpr hge)⟩

/-- A shared function as a parameter refers to no node. -/
theorem ends_ofFunction_shared {s : Session} {key : MemoKey}
    {make : Nat → Except CompileError Function}
    (hok : ∀ f, make s.nextSerial = .ok f →
      f.serial = s.nextSerial ∧ f.Fits (s.scopes.library? scope) key)
    (hmild : Mild (make s.nextSerial)) :
    Ends (shared scope key make >>= fun f => pure (Parameter.ofFunction f)) s
      (fun p s' => Changes strict scope s s' ∧ (strict → s'.Has p.handles))
      (fun e s' => Changes strict scope s s' ∧
        (strict → scope < s.scopes.size → e.isInternal = false)) := by
  rw [ends_bind]
  refine (ends_shared_changes hok hmild).mono (fun f s' hc => ?_) fun _ _ h => h
  rw [ends_pure]
  refine ⟨hc, fun _ => ?_⟩
  cases f <;> exact Session.Has.nil s'

theorem works_resolveReference (r : Reference) :
    Works strict scope given (resolveReference scope r) Parameter.handles := by
  -- The three kinds of function differ in what they are made of only.
  cases r with
  | operator id =>
    refine works_bind works_node fun h => works_pure ?_
    exact List.subset_append_left _ _
  | subflow spec => exact works_pure (List.nil_subset _)
  | field path name =>
    intro s _
    refine ends_ofFunction_shared (fun f hf => ?_) (plain_map (Accessor.ofField_plain _ _ _)).mild
    unfold Accessor.ofField at hf
    cases hp : FieldPath.split path with
    | error e => simp [hp, Except.map] at hf
    | ok segments =>
      simp only [hp, Except.map, Except.ok.injEq] at hf
      subst hf
      exact ⟨rfl, segments, hp, rfl, rfl, rfl⟩
  | compare fields directions =>
    intro s _
    refine ends_ofFunction_shared (fun f hf => ?_)
      (plain_map (Comparator.ofFields_plain _ _ _)).mild
    unfold Comparator.ofFields at hf
    cases hk : SortKey.ofFields fields directions with
    | error e => simp [hk, Except.map] at hf
    | ok keys =>
      simp only [hk, Except.map, Except.ok.injEq] at hf
      subst hf
      exact ⟨rfl, hk⟩
  | expression e =>
    intro s _
    unfold resolveReference
    rw [ends_bind, ends_get]
    refine ends_ofFunction_shared (fun f hf => ?_)
      (plain_map (Accessor.ofExpression_plain _ _ _ _ _)).mild
    unfold Accessor.ofExpression at hf
    cases he : Expr.compile e.text (s.scopes.library? scope) with
    | error err => simp [he, Except.map] at hf
    | ok tree =>
      simp only [he, Except.map, Except.ok.injEq] at hf
      subst hf
      exact ⟨rfl, tree, he, rfl⟩

theorem works_resolveOne (v : Json) :
    Works strict scope given (resolveOne scope v) Parameter.handles := by
  unfold resolveOne
  have hdecode : Works strict scope given (MonadExcept.ofExcept (Reference.decode v)) fun _ => [] :=
    works_ofExcept (fun _ _ => List.nil_subset _) (Reference.decode_plain v).mild
  refine works_bind hdecode fun r => ?_
  cases r with
  | some r => exact works_resolveReference r
  | none => exact works_pure (List.nil_subset _)

theorem works_resolve (v : Json) :
    Works strict scope given (resolve scope v) Parameter.handles := by
  cases v with
  | array items =>
    refine works_bind (works_mapM fun v _ => works_resolveOne v) fun ps => works_pure ?_
    rw [Parameter.handles, Parameter.itemHandles_eq]
    exact List.subset_append_left _ _
  | _ => exact works_resolveOne _

/-- The first parameter is resolved, with what it brings along, before the others are. -/
theorem resolveInto_cons (params : Parameters) (name : String) (v : Json)
    (rest : List (String × Json)) :
    resolveInto scope params ((name, v) :: rest) =
      resolveBrought scope params v >>= fun params =>
        resolve scope v >>= fun p => resolveInto scope (params.insert name p) rest := by
  rw [resolveInto, resolveBrought]
  split <;> rename_i h <;> simp only [h]

theorem works_resolveInto (params : Parameters) (members : List (String × Json))
    (h : params.nodes ⊆ given) :
    Works strict scope given (resolveInto scope params members) Parameters.nodes := by
  induction params, members using resolveInto.induct scope generalizing given with
  | case1 params =>
    rw [resolveInto]
    exact works_pure h
  | case2 params name v rest ihNested ihRest =>
    rw [resolveInto_cons]
    have hbrought : Works strict scope given (resolveBrought scope params v) Parameters.nodes := by
      unfold resolveBrought
      split
      · rename_i nested hn
        exact ihNested nested hn h
      · exact works_pure h
    refine works_bind hbrought fun params' => works_bind (works_resolve v) fun p => ?_
    refine ihRest params' p fun h hh => ?_
    -- The parameters refer to what has just been found, and to what they referred to before.
    have := Parameters.nodes_insert_subset params' name p hh
    simp only [List.mem_append] at this ⊢
    exact this.imp (fun h => h) .inl

/-- Resolving into parameters from anywhere is harmless too: nothing of them is recorded. -/
theorem works_resolveInto_any (params : Parameters) (members : List (String × Json)) :
    Works strict scope given (resolveInto scope params members) fun _ => [] := by
  induction params, members using resolveInto.induct scope generalizing given with
  | case1 params =>
    rw [resolveInto]
    exact works_pure (List.nil_subset _)
  | case2 params name v rest ihNested ihRest =>
    rw [resolveInto_cons]
    have hbrought : Works strict scope given (resolveBrought scope params v) fun _ => [] := by
      unfold resolveBrought
      split
      · rename_i nested hn
        exact ihNested nested hn
      · exact works_pure (List.nil_subset _)
    exact works_bind hbrought fun params' =>
      works_bind (works_resolve v) fun p => ihRest params' p

theorem works_resolveBrought (params : Parameters) (v : Json) (h : params.nodes ⊆ given) :
    Works strict scope given (resolveBrought scope params v) Parameters.nodes := by
  unfold resolveBrought
  split
  · exact works_resolveInto params _ h
  · exact works_pure h

theorem works_resolveFunction (role : Role) (params : Parameters) (v : Json)
    (h : params.nodes ⊆ given) :
    Works strict scope given (resolveFunction scope role params v) fun r => r.2.nodes := by
  refine works_bind (works_resolveBrought params v h) fun params' =>
    works_bind (works_resolveOne v) fun p => ?_
  cases p with
  | accessor f =>
    refine works_pure fun n hn => ?_
    simp only [List.mem_append]
    exact .inr (.inl hn)
  | _ => exact works_throw rfl

/-! ## Operators -/

theorem works_load (handle : Handle) (value : Json) (h : handle ∈ given) :
    Works strict scope given (load handle value) fun _ => [] := by
  have hc : [handle] ⊆ given := List.cons_subset.mpr ⟨h, List.nil_subset _⟩
  unfold load
  split
  all_goals exact works_discard (works_send rfl hc (List.nil_subset _))

/-- A node that has been linked to its parent is made a target of it without fail. -/
theorem refusal?_addTarget {s : Session} {parent child : Handle}
    (h : s.graph.refusal? (.connect parent [child]) = none) :
    (s.sent (.connect parent [child])).graph.refusal? (.addTarget parent child) = none := by
  have hc := Graph.checked_lt_size h
  refine Graph.refusal?_eq_none (fun node hn => ?_) (by simp)
  refine Nat.lt_of_lt_of_le (hc node ?_) (s.size_le_sent _)
  simp only [Request.checked, List.mem_cons, List.not_mem_nil, or_false] at hn ⊢
  exact hn.symm

/-- Attaching a node to the parent of its entry makes one change of the session. -/
theorem ends_attach {s : Session} {id parent : EntryId} {handle : Handle}
    {done : Unit → Session → Prop} {failed : CompileError → Session → Prop} :
    Ends (attach scope id parent handle) s done failed ↔
      match s.scopes.node? scope parent with
      | none => failed (.unknownParent id parent) s
      | some p =>
        match s.graph.refusal? (.connect p [handle]) with
        | none => done () (s.attached p handle)
        | some e => failed (.graph e) (s.attached p handle) := by
  unfold attach
  rw [ends_bind, ends_get]
  cases s.scopes.node? scope parent with
  | none => exact Iff.rfl
  | some p =>
    simp only [ends_bind, ends_discard, ends_send, Session.attached]
    cases hr : s.graph.refusal? (.connect p [handle]) with
    | some e => simp
    | none => simp [refusal?_addTarget hr]

theorem works_attach (id parent : EntryId) (handle : Handle) (h : handle ∈ given) :
    Works strict scope given (attach scope id parent handle) fun _ => [] := by
  intro s hs
  rw [ends_attach]
  cases hp : s.scopes.node? scope parent with
  | none => exact ⟨.refl, fun _ _ => rfl⟩
  | some p =>
    have hc : Changes strict scope s (s.attached p handle) := .single (.attach p handle)
    cases hr : s.graph.refusal? (.connect p [handle]) with
    | none =>
      simp only [hr]
      exact ⟨hc, fun _ => Session.Has.nil _⟩
    | some e =>
      simp only [hr]
      refine ⟨hc, fun hstrict _ => ?_⟩
      obtain ⟨node, hmem, -, hge⟩ | ⟨node, resource, rfl⟩ := Graph.refusal?_eq_some hr
      · -- Both ends of the link exist in a closed session.
        refine absurd ?_ (Nat.not_lt.mpr hge)
        simp only [Request.checked, List.mem_cons, List.not_mem_nil, or_false] at hmem
        obtain rfl | rfl := hmem
        · exact (hs hstrict).1.node?_lt hp
        · exact (hs hstrict).2 _ h
      · rfl

theorem works_publish (spec : OperatorSpec) (handle : Handle) (h : handle ∈ given) :
    Works strict scope given (publish scope spec handle) fun _ => [] := by
  refine works_bind (works_forM_option fun name _ => works_record (.signal name) h)
    fun _ => ?_
  refine works_bind (works_forM_option fun name _ => works_record (.scale name) h)
    fun _ => ?_
  refine works_forM_option fun data _ => works_forM fun (dataset, roles) _ => ?_
  refine works_forM fun name _ => ?_
  exact works_record (.role dataset name) h

theorem works_register (spec : OperatorSpec) (handle : Handle) (h : handle ∈ given) :
    Works strict scope given (register scope spec handle) fun _ => [] := by
  unfold register
  refine works_bind (works_record (.node spec.id) h) fun _ => ?_
  have hload : Works strict scope given (forM spec.value (load handle)) fun _ => [] :=
    works_forM_option fun v _ => works_load handle v h
  have hrest : Works strict scope given (do
      forM spec.parent fun parent => attach scope spec.id parent handle
      publish scope spec handle) fun _ => [] :=
    works_bind (works_forM_option fun parent _ => works_attach spec.id parent handle h)
      fun _ => works_publish spec handle h
  have hroot : Works strict scope given (write (·.setRoot scope handle)) fun _ => [] :=
    works_record .root h
  -- The two conditions are independent, and what follows them is the same.
  dsimp only
  split
  · refine works_bind hload fun _ => ?_
    split
    · exact works_bind hroot fun _ => hrest
    · exact hrest
  · split
    · exact works_bind hroot fun _ => hrest
    · exact hrest

/-! ## Making nodes -/

theorem works_resolveValue (spec : OperatorSpec) :
    Works strict scope given (resolveValue scope spec) fun r => r.1.nodes := by
  unfold resolveValue
  split
  · exact works_pure (List.nil_subset _)
  · split
    · refine works_bind (works_resolveInto .empty _ (List.nil_subset _)) fun params => ?_
      exact works_pure (List.subset_append_left _ _)
    · exact works_pure (List.nil_subset _)

theorem works_behavior (spec : OperatorSpec) (params : Parameters) (initial : Option Json)
    (h : params.nodes ⊆ given) :
    Works strict scope given (behavior scope spec params initial) fun r => r.2.nodes := by
  intro s hs
  -- The registry of transforms is read from the session, and nothing is resolved if it decides.
  unfold behavior
  rw [ends_bind, ends_get]
  cases transform? spec s.transforms with
  | some t => exact works_pure h s hs
  | none =>
    cases spec.update with
    | none => exact works_pure h s hs
    | some v =>
      refine works_bind (works_resolveFunction .update params v h) (fun r => ?_) s hs
      exact works_pure (List.subset_append_left _ _)

theorem works_operator (spec : OperatorSpec) :
    Works strict scope given (operator scope spec) fun h => [h] := by
  unfold operator
  refine works_bind (works_resolveValue spec) fun (params, initial) => ?_
  refine works_bind (works_resolveInto params _ (List.subset_append_left _ _)) fun params => ?_
  refine works_bind (works_behavior spec params initial (List.subset_append_left _ _))
    fun (behavior, params) => ?_
  refine works_bind (works_send rfl ?_ (List.nil_subset _)) fun handle => ?_
  · exact List.subset_append_left _ _
  · refine works_bind (works_register spec handle (by simp)) fun _ => works_pure ?_
    simp

/-! ## Streams, listeners and specifications -/

theorem works_stream (spec : StreamSpec) :
    Works strict scope given (stream scope spec) fun h => [h] := by
  unfold stream
  refine works_bind (works_mapM_option fun id _ => works_node) fun parent => ?_
  -- What is left to do once the filter is there.
  have hsend : ∀ (filter : Option Accessor) (params : Parameters) (given' : List Handle),
      params.nodes ⊆ given' → parent.toList ⊆ given' →
      Works strict scope given' (do
        let handle ← send (.stream ⟨spec.source, spec.kind, parent, filter⟩ params)
        write (·.setNode scope spec.id handle)
        return handle) fun h => [h] := by
    intro filter params given' hparams hparent
    refine works_bind (works_send rfl ?_ (List.nil_subset _)) fun handle => ?_
    · exact List.append_subset.mpr ⟨hparent, hparams⟩
    · refine works_bind (works_record (.node spec.id) (by simp)) fun _ => works_pure ?_
      simp
  cases spec.filter with
  | none => exact hsend none .empty _ (List.nil_subset _) (by simp)
  | some v =>
    refine works_bind (works_resolveFunction .filter .empty v (List.nil_subset _)) fun r => ?_
    exact hsend (some r.1) r.2 _ (List.subset_append_left _ _) (by simp)

theorem works_listenerUpdate (v : Json) :
    Works strict scope given (listenerUpdate scope v) fun r => r.2.nodes := by
  refine works_bind (works_resolveBrought .empty v (List.nil_subset _)) fun params => ?_
  refine works_bind (works_resolveOne v) fun p => ?_
  cases p with
  | literal v => exact works_pure fun n hn => List.mem_append_right _ (List.mem_append_left _ hn)
  | accessor f => exact works_pure fun n hn => List.mem_append_right _ (List.mem_append_left _ hn)
  | _ => exact works_throw rfl

theorem works_listener (spec : UpdateSpec) :
    Works strict scope given (listener scope spec) fun _ => [] := by
  unfold listener
  cases spec.sourceId? with
  | none => exact works_throw rfl
  | some sourceId =>
    refine works_bind works_node fun source => works_bind works_node fun target => ?_
    -- What is left to do once the update is there.
    have hsend : ∀ (update : Option ListenerUpdate) (params : Parameters) (given' : List Handle),
        params.nodes ⊆ given' → [source, target] ⊆ given' →
        Works strict scope given' (do
          let params ← resolveInto scope params ((spec.params.map Table.entries).getD [])
          discard <| send (.listen ⟨source, target, update, params, spec.options⟩))
          fun _ => [] := by
      intro update params given' hparams hends
      refine works_bind (works_resolveInto params _ hparams) fun params => ?_
      have hc : [source, target] ⊆ params.nodes ++ given' :=
        List.Subset.trans hends (List.subset_append_right _ _)
      exact works_discard (works_send rfl hc (List.subset_append_left _ _))
    cases spec.update with
    | none => exact hsend none .empty _ (List.nil_subset _) (by simp)
    | some v =>
      refine works_bind (works_listenerUpdate v) fun r => ?_
      exact hsend (some r.1) r.2 _ (List.subset_append_left _ _) (by simp)

theorem works_specification (spec : Spec) :
    Works strict scope given (specification scope spec) fun _ => [] := by
  unfold specification
  refine works_bind (works_forM fun o _ => works_within (works_discard (works_operator o)))
    fun _ => ?_
  refine works_bind (works_forM fun s _ => works_within (works_discard (works_stream s)))
    fun _ => ?_
  exact works_forM fun u _ => works_within (works_listener u)

end Compile

end Dataflow
