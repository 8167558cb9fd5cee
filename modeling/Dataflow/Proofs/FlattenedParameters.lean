import Dataflow.Proofs.ResolutionOutcome
import Dataflow.Proofs.TableLists
import Mathlib.Data.List.Forall2

/-!
# Parameters as one list

The parameters that an expression brings along are resolved just before it, into the same
accumulator. So a set of parameters is resolved as one list, in which nested parameters stand
before the one that brings them (`flatten`), and the accumulator is the table of the results
(`resolveInto_eq`): a name keeps the place of its first occurrence, and the last one counts.

An operator goes through three such lists, that of its value, that of its parameters and that of
what its update brings along. `Collects` says of a step which values it adds to what has been
collected; two steps add what both add (`collects_bind`). The main result is `operator_parameters`:
the three are one list, and the first value of it that cannot be resolved decides.
-/

namespace Dataflow

/-! ## The list -/

/-- The parameters in the order in which they are resolved: those that a value brings along come
just before it. -/
def flatten : List (String × Json) → List (String × Json)
  | [] => []
  | (name, v) :: rest =>
    let brought :=
      match _h : expressionParams? v with
      | some nested => flatten nested
      | none => []
    brought ++ (name, v) :: flatten rest
termination_by members => sizeOf members
decreasing_by
  · have := sizeOf_expressionParams_lt _h
    simp only [List.cons.sizeOf_spec, Prod.mk.sizeOf_spec]
    omega
  · simp only [List.cons.sizeOf_spec, Prod.mk.sizeOf_spec]
    omega

@[simp] theorem flatten_nil : flatten [] = [] := by rw [flatten]

theorem flatten_cons (name : String) (v : Json) (rest : List (String × Json)) :
    flatten ((name, v) :: rest) =
      flatten ((expressionParams? v).getD []) ++ (name, v) :: flatten rest := by
  rw [flatten]
  split <;> rename_i h <;> simp [h]

theorem flatten_append (xs ys : List (String × Json)) :
    flatten (xs ++ ys) = flatten xs ++ flatten ys := by
  induction xs with
  | nil => rw [flatten_nil, List.nil_append, List.nil_append]
  | cons e rest ih =>
    obtain ⟨name, v⟩ := e
    rw [List.cons_append, flatten_cons, flatten_cons, ih, List.append_assoc, List.cons_append]

namespace Compile

variable {library : Option Library} {scope : ScopeId} {nodes : EntryId → Option Handle}
  {s s' : Session}

/-- Resolves one entry of the list. -/
def resolveEntry (scope : ScopeId) (e : String × Json) : Compile (String × Parameter) :=
  (e.1, ·) <$> resolve scope e.2

theorem resolveBrought_eq (params : Parameters) (v : Json) :
    resolveBrought scope params v = resolveInto scope params ((expressionParams? v).getD []) := by
  unfold resolveBrought
  cases expressionParams? v with
  | some nested => rfl
  | none => exact (resolveInto.eq_1 scope params).symm

/-- Parameters are resolved as one list, entry by entry, and stored in this order. -/
theorem resolveInto_eq (params : Parameters) (members : List (String × Json)) :
    resolveInto scope params members =
      params.insertAll <$> (flatten members).mapM (resolveEntry scope) := by
  induction params, members using resolveInto.induct scope with
  | case1 params =>
    rw [resolveInto, flatten_nil]
    rfl
  | case2 params name v rest ihNested ihRest =>
    have hbrought : resolveBrought scope params v =
        params.insertAll <$>
          (flatten ((expressionParams? v).getD [])).mapM (resolveEntry scope) := by
      unfold resolveBrought
      split
      · rename_i nested hn
        rw [hn]
        exact ihNested nested hn
      · rename_i hn
        rw [hn, Option.getD_none, flatten_nil]
        rfl
    rw [resolveInto_cons, hbrought, flatten_cons, List.mapM_append, List.mapM_cons]
    simp only [ihRest, resolveEntry, map_eq_pure_bind, bind_assoc, pure_bind,
      Table.insertAll_append]
    rfl

/-- Lists whose entries are resolved in the same way are. -/
theorem resolveInto_congr {xs ys : List (String × Json)}
    (h : (flatten xs).map (resolveEntry scope) = (flatten ys).map (resolveEntry scope))
    (params : Parameters) : resolveInto scope params xs = resolveInto scope params ys := by
  have hmap (zs : List (String × Json)) :
      zs.mapM (resolveEntry scope) = (zs.map (resolveEntry scope)).mapM id := by
    rw [List.mapM_map]
    rfl
  rw [resolveInto_eq, resolveInto_eq, hmap, hmap, h]

end Compile

/-! ## Collecting -/

/-- What a value stands for, where it can be resolved. -/
def Session.meaning (s : Session) (scope : ScopeId) (v : Json) : Parameter :=
  match Compile.resolve scope v s with
  | .ok p _ => p
  | .error _ _ => .literal v

/-- The first fault of a list. -/
def faultIn (library : Option Library) (nodes : EntryId → Option Handle)
    (listed : List (String × Json)) : Option CompileError :=
  listed.findSome? fun e => e.2.fault? library nodes

namespace Compile

variable {library : Option Library} {scope : ScopeId} {nodes : EntryId → Option Handle}
  {s s' : Session} {listed before : List (String × Json)} {params : Parameters}

/-- From this session on all values of the list are resolved at once, and the parameters are what
they stand for. -/
structure Collected (scope : ScopeId) (s : Session) (listed : List (String × Json))
    (params : Parameters) : Prop where
  repeats : ∀ e ∈ listed, Repeats scope s (resolve scope e.2) (s.meaning scope e.2)
  eq : params = .ofList (listed.map fun e => (e.1, s.meaning scope e.2))

theorem Repeats.meaning_eq {v : Json} {p : Parameter} (h : Repeats scope s (resolve scope v) p) :
    s.meaning scope v = p := by
  rw [Session.meaning, h s (.refl s)]

theorem collected_nil : Collected scope s [] .empty := ⟨by simp, rfl⟩

theorem Collected.shared (hc : Collected scope s listed params) (h : s.Sharing scope s') :
    Collected scope s' listed params := by
  -- What a value stands for is settled, so it is the same in the later session.
  have hsame (e : String × Json) (he : e ∈ listed) : s'.meaning scope e.2 = s.meaning scope e.2 :=
    ((hc.repeats e he).shared h).meaning_eq
  refine ⟨fun e he => ?_, hc.eq.trans ?_⟩
  · rw [hsame e he]
    exact (hc.repeats e he).shared h
  · refine congrArg Table.ofList (List.map_congr_left fun e he => ?_)
    rw [hsame e he]

/-- The result of an entry is its name and what its value stands for. -/
theorem Repeats.of_entry {e : String × Json} {r : String × Parameter}
    (h : Repeats scope s (resolveEntry scope e) r) :
    r = (e.1, s.meaning scope e.2) ∧
      Repeats scope s (resolve scope e.2) (s.meaning scope e.2) := by
  have hall (t : Session) (ht : s.Sharing scope t) :
      r.1 = e.1 ∧ resolve scope e.2 t = .ok r.2 t := by
    have hr := h t ht
    rw [resolveEntry, map_eq_pure_bind, Graph.bind_run] at hr
    cases hv : resolve scope e.2 t with
    | error err t' => rw [hv] at hr; cases hr
    | ok p t' =>
      rw [hv] at hr
      cases hr
      exact ⟨rfl, rfl⟩
  have hrepeats : Repeats scope s (resolve scope e.2) r.2 := fun t ht => (hall t ht).2
  rw [hrepeats.meaning_eq]
  exact ⟨Prod.ext (hall s (.refl s)).1 rfl, hrepeats⟩

/-- The results of a list are the names with what the values stand for. -/
theorem collected_of_entries {results : List (String × Parameter)}
    (h : List.Forall₂ (fun e r => Repeats scope s (resolveEntry scope e) r) listed results) :
    results = (listed.map fun e => (e.1, s.meaning scope e.2)) ∧
      ∀ e ∈ listed, Repeats scope s (resolve scope e.2) (s.meaning scope e.2) := by
  induction h with
  | nil => exact ⟨rfl, fun _ h => nomatch h⟩
  | cons he _ ih =>
    refine ⟨List.cons_eq_cons.mpr ⟨he.of_entry.1, ih.1⟩, fun e h => ?_⟩
    obtain rfl | h := List.mem_cons.mp h
    · exact he.of_entry.2
    · exact ih.2 e h

theorem faultIn_append (xs ys : List (String × Json)) :
    faultIn library nodes (xs ++ ys) = (faultIn library nodes xs).or (faultIn library nodes ys) :=
  List.findSome?_append

section

variable {α β : Type} {xs ys : List (String × Json)} {m : Compile α} {f : α → Compile β}
  {found : α → Parameters} {result : β → Parameters} {other : CompileError → Session → Prop}

/-- The step goes on from what has been collected and collects the listed values, too. It fails over
the first fault among them or, where there is none, in some other way. -/
def Collects (library : Option Library) (scope : ScopeId) (nodes : EntryId → Option Handle)
    (s : Session) (before listed : List (String × Json)) (m : Compile α) (found : α → Parameters)
    (other : CompileError → Session → Prop) : Prop :=
  Ends m s
    (fun a s' => faultIn library nodes listed = none ∧ s.Sharing scope s' ∧
      Collected scope s' (before ++ listed) (found a))
    fun e s' => s.Sharing scope s' ∧ (faultIn library nodes listed = some e ∨
      faultIn library nodes listed = none ∧ other e s')

theorem collects_pure {a : α} (found : α → Parameters) (hc : Collected scope s before (found a)) :
    Collects library scope nodes s before [] (pure a) found other :=
  ⟨rfl, .refl s, (List.append_nil before).symm ▸ hc⟩

/-- What two steps collect one after the other is one list. -/
theorem collects_bind (hs : s.Outlook library scope nodes)
    (hm : Collects library scope nodes s before xs m found fun _ _ => False)
    (hf : ∀ a s', s.Sharing scope s' → s'.Outlook library scope nodes →
      Collected scope s' (before ++ xs) (found a) →
      Collects library scope nodes s' (before ++ xs) ys (f a) result other) :
    Collects library scope nodes s before (xs ++ ys) (m >>= f) result other := by
  unfold Collects
  -- The first step fails only over a fault of its own list, and that one comes first in both.
  rw [ends_bind, faultIn_append]
  refine Ends.mono hm ?_ ?_
  · rintro a s₁ ⟨hnone, hshared, hc⟩
    rw [hnone, Option.none_or, ← List.append_assoc]
    refine Ends.mono (hf a s₁ hshared (hs.shared hshared) hc) ?_ ?_
    · exact fun b s₂ ⟨hnone', hshared', hc'⟩ => ⟨hnone', hshared.trans hshared', hc'⟩
    · exact fun e s₂ ⟨hshared', he⟩ => ⟨hshared.trans hshared', he⟩
  · rintro e s₁ ⟨hshared, he | ⟨-, hother⟩⟩
    · exact ⟨hshared, .inl (by rw [he, Option.some_or])⟩
    · exact hother.elim

/-- Resolving parameters collects their list. -/
theorem collects_resolveInto (hs : s.Outlook library scope nodes)
    (hc : Collected scope s before params) (members : List (String × Json)) :
    Collects library scope nodes s before (flatten members) (resolveInto scope params members)
      (fun params => params) fun _ _ => False := by
  unfold Collects
  rw [resolveInto_eq, ends_map]
  refine (ends_mapM_answers (fun e => answers_map (e.1, ·) (answers_resolve e.2))
    (flatten members) hs).mono ?_ ?_
  · rintro results s' ⟨hnone, hshared, hresults⟩
    obtain ⟨rfl, hrepeats⟩ := collected_of_entries hresults
    have hbefore := hc.shared hshared
    refine ⟨hnone, hshared, fun e he => ?_, ?_⟩
    · exact (List.mem_append.mp he).elim (hbefore.repeats e) (hrepeats e)
    · rw [hbefore.eq, List.map_append]
      exact (Table.insertAll_append ..).symm
  · rintro e s' ⟨he, hshared⟩
    exact ⟨hshared, .inl he⟩

end

end Compile

/-! ## Operators -/

namespace OperatorSpec

/-- The parameters in the value of an operator; one that collects has none there. -/
def valueMembers (spec : OperatorSpec) : List (String × Json) :=
  if spec.isCollect then []
  else
    match spec.value with
    | some (.object members) => members
    | _ => []

/-- The parameters that the update of a plain operator brings along. -/
def updateMembers (spec : OperatorSpec) (transforms : Registry) : List (String × Json) :=
  match Compile.transform? spec transforms with
  | some _ => []
  | none => (spec.update.bind expressionParams?).getD []

/-- All parameters of an operator, in the order in which they are resolved. -/
def listed (spec : OperatorSpec) (transforms : Registry) : List (String × Json) :=
  flatten spec.valueMembers ++ flatten ((spec.params.map Table.entries).getD []) ++
    flatten (spec.updateMembers transforms)

end OperatorSpec

namespace Compile

variable {library : Option Library} {scope : ScopeId} {nodes : EntryId → Option Handle}
  {s : Session} {before : List (String × Json)} {params : Parameters}

/-- In this session the value of an update cannot be resolved, or it stands for no function. -/
def NoUpdate (scope : ScopeId) (v : Json) (s : Session) (e : CompileError) : Prop :=
  (∃ t, resolveOne scope v s = .error e t) ∨
    ∃ p, resolveOne scope v s = .ok p s ∧ (∀ f, p ≠ .accessor f) ∧
      e = .malformedReference (.notFunction .update)

/-- What comes before the request for the node of an operator. -/
def prepare (scope : ScopeId) (spec : OperatorSpec) : Compile (Behavior × Parameters) := do
  let (params, initial) ← resolveValue scope spec
  let params ← resolveInto scope params ((spec.params.map Table.entries).getD [])
  behavior scope spec params initial

/-- The request for the node of an operator, and what comes after it. -/
def make (scope : ScopeId) (spec : OperatorSpec) (behavior : Behavior) (params : Parameters) :
    Compile Handle := do
  let handle ← send (.add behavior params spec.react)
  register scope spec handle
  return handle

theorem operator_eq (spec : OperatorSpec) :
    operator scope spec = prepare scope spec >>= fun r => make scope spec r.1 r.2 := by
  simp only [operator, prepare, make, bind_assoc]

/-- Until the request for the node, an operator is only resolved. -/
theorem relates_prepare {R : Session → Session → Prop} (hR : Session.AllowsSharing R)
    (spec : OperatorSpec) : Relates R (prepare scope spec) := by
  refine relates_bind hR (relates_resolveValue hR spec) fun r => ?_
  refine relates_bind hR (relates_resolveInto hR r.1 _) fun params => ?_
  exact relates_behavior hR spec params r.2

theorem collects_resolveValue (hs : s.Outlook library scope nodes) (spec : OperatorSpec) :
    Collects library scope nodes s [] (flatten spec.valueMembers) (resolveValue scope spec) Prod.fst
      fun _ _ => False := by
  unfold resolveValue OperatorSpec.valueMembers
  by_cases hcollect : spec.isCollect = true
  · rw [if_pos hcollect, if_pos hcollect, flatten_nil]
    exact collects_pure Prod.fst collected_nil
  · rw [if_neg hcollect, if_neg hcollect]
    have hnone (initial : Option Json) : Collects library scope nodes s [] (flatten [])
        (pure (.empty, initial)) Prod.fst fun _ _ => False :=
      flatten_nil.symm ▸ collects_pure Prod.fst collected_nil
    cases spec.value with
    | none => exact hnone none
    | some v =>
      cases v with
      | object members =>
        show Collects library scope nodes s [] (flatten members)
          (resolveInto scope .empty members >>= _) Prod.fst _
        rw [← List.append_nil (flatten members)]
        refine collects_bind hs (collects_resolveInto hs collected_nil members) ?_
        exact fun params s' _ _ hc => collects_pure Prod.fst hc
      | _ => exact hnone _

/-- The update of a plain operator is resolved after what it brings along has been collected. -/
theorem collects_resolveUpdate (hs : s.Outlook library scope nodes)
    (hc : Collected scope s before params) (v : Json) :
    Collects library scope nodes s before (flatten ((expressionParams? v).getD []))
      (resolveFunction scope .update params v) Prod.snd fun e s' => NoUpdate scope v s' e := by
  unfold resolveFunction
  rw [resolveBrought_eq, ← List.append_nil (flatten _)]
  refine collects_bind hs (collects_resolveInto hs hc _) fun params' s₁ _ hs₁ hc₁ => ?_
  unfold Collects
  rw [ends_bind]
  refine (answers_resolveOne v s₁ hs₁).mono ?_ ?_
  · rintro p s₂ ⟨-, hshared, hp⟩
    cases p with
    | accessor f => exact ⟨rfl, hshared, (List.append_nil _).symm ▸ hc₁.shared hshared⟩
    | _ => exact ⟨hshared, .inr ⟨rfl, .inr ⟨_, hp s₂ (.refl s₂), by simp, rfl⟩⟩⟩
  · rintro e s₂ ⟨he, hshared⟩
    exact ⟨hshared, .inr ⟨rfl, .inl ((answers_resolveOne v).error (hs₁.shared hshared) he)⟩⟩

/-- Only a plain operator has an update. -/
theorem collects_behavior (hs : s.Outlook library scope nodes)
    (hc : Collected scope s before params) (spec : OperatorSpec) (initial : Option Json) :
    Collects library scope nodes s before (flatten (spec.updateMembers s.transforms))
      (behavior scope spec params initial) Prod.snd
      fun e s' => transform? spec s.transforms = none ∧
        ∃ v, spec.update = some v ∧ NoUpdate scope v s' e := by
  unfold Collects behavior OperatorSpec.updateMembers
  rw [ends_bind, ends_get]
  cases transform? spec s.transforms with
  | some t => exact flatten_nil.symm ▸ collects_pure Prod.snd hc
  | none =>
    cases spec.update with
    | none => exact flatten_nil.symm ▸ collects_pure Prod.snd hc
    | some v =>
      show Ends (resolveFunction scope .update params v >>= _) s _ _
      rw [ends_bind]
      refine Ends.mono (collects_resolveUpdate hs hc v) (fun _ _ h => h) ?_
      rintro e s' ⟨hshared, he⟩
      exact ⟨hshared, he.imp id fun ⟨hnone, hv⟩ => ⟨hnone, rfl, v, rfl, hv⟩⟩

/-- All parameters of an operator are collected before its node is made. -/
theorem collects_prepare (hs : s.Outlook library scope nodes) (spec : OperatorSpec) :
    Collects library scope nodes s [] (spec.listed s.transforms) (prepare scope spec) Prod.snd
      fun e s' => transform? spec s.transforms = none ∧
        ∃ v, spec.update = some v ∧ NoUpdate scope v s' e := by
  unfold prepare OperatorSpec.listed
  rw [List.append_assoc]
  refine collects_bind hs (collects_resolveValue hs spec) fun r s₁ hshared₁ hs₁ hc₁ => ?_
  refine collects_bind hs₁ (collects_resolveInto hs₁ hc₁ _) fun params s₂ hshared₂ hs₂ hc₂ => ?_
  rw [← (hshared₁.trans hshared₂).changes.transforms]
  exact collects_behavior hs₂ hc₂ spec r.2

/-- Where an array has been resolved for good, its items have been, in their order. -/
theorem items_of_resolve (hs : s.Outlook library scope nodes) {items : List Json} {p : Parameter}
    (h : resolve scope (.array items) s = .ok p s) :
    ∃ ps, p = .array ps ∧
      List.Forall₂ (fun item q => resolveOne scope item s = .ok q s) items ps := by
  have hitems := ends_mapM_answers answers_resolveOne items hs
  have hbind : resolve scope (.array items) = items.mapM (resolveOne scope) >>= fun ps =>
    pure (Parameter.array ps) := rfl
  rw [hbind, Graph.bind_run] at h
  cases hm : items.mapM (resolveOne scope) s with
  | error e s' =>
    rw [hm] at h
    cases h
  | ok ps s' =>
    rw [hm] at h
    cases h
    exact ⟨ps, rfl, (hitems.ok hm).2.2.imp fun _ _ hq => hq s (.refl s)⟩

end Compile

/-! ## All parameters of an operator -/

/-- In this session a value stands for a parameter, and an array for its items one by one. -/
structure Session.Resolves (s : Session) (scope : ScopeId) (v : Json) (p : Parameter) : Prop where
  resolve : Compile.resolve scope v s = .ok p s
  items : ∀ items, v = .array items → ∃ ps, p = .array ps ∧
    List.Forall₂ (fun item q => Compile.resolveOne scope item s = .ok q s) items ps

/-- The parameters have the names of the list, in the order in which they occur first, and each has
what its last value stands for. -/
structure Parameters.AreLast (params : Parameters) (listed : List (String × Json))
    (resolves : Json → Parameter → Prop) : Prop where
  keys : params.keys = (listed.map Prod.fst).eraseDups
  last : ∀ before name v after, listed = before ++ (name, v) :: after →
    name ∉ after.map Prod.fst → ∃ p, params.get? name = some p ∧ resolves v p

namespace Compile

variable {library : Option Library} {scope : ScopeId} {nodes : EntryId → Option Handle}
  {s : Session} {listed : List (String × Json)} {params : Parameters}

theorem Collected.areLast (hs : s.Outlook library scope nodes)
    (hc : Collected scope s listed params) : params.AreLast listed (s.Resolves scope) where
  keys := by
    rw [hc.eq, Table.keys_ofList, List.map_map]
    rfl
  last := by
    rintro before name v after rfl hlast
    have hv : resolve scope v s = .ok (s.meaning scope v) s :=
      hc.repeats (name, v) (List.mem_append_right _ List.mem_cons_self) s (.refl s)
    refine ⟨s.meaning scope v, ?_, hv, ?_⟩
    · rw [hc.eq, List.map_append, List.map_cons]
      refine Table.get?_ofList_last ?_ _ _
      rwa [List.map_map]
    · rintro items rfl
      exact items_of_resolve hs hv

/-- A list has no fault if all of it can be resolved. -/
theorem faultIn_eq_none (hs : s.Outlook library scope nodes)
    (h : ∀ e ∈ listed, ∃ p t, resolve scope e.2 s = .ok p t) :
    faultIn library nodes listed = none := by
  refine List.findSome?_eq_none_iff.mpr fun e he => ?_
  obtain ⟨p, t, hok⟩ := h e he
  exact ((answers_resolve e.2 s hs).ok hok).1

/-- The first value that cannot be resolved is the first fault. -/
theorem faultIn_eq_some (hs : s.Outlook library scope nodes) {before after : List (String × Json)}
    {name : String} {v : Json} {e : CompileError} {t : Session}
    (hbefore : ∀ b ∈ before, ∃ p t, resolve scope b.2 s = .ok p t)
    (hv : resolve scope v s = .error e t) :
    faultIn library nodes (before ++ (name, v) :: after) = some e := by
  have hfault : v.fault? library nodes = some e := ((answers_resolve v s hs).error hv).1
  rw [faultIn_append, faultIn_eq_none hs hbefore]
  simp [faultIn, hfault]

end Compile

/-- At every moment of every run, and for every operator in a scope that there is:

* If a value of the list cannot be resolved, and all before it can, the operator fails with the
  error of this value and has asked for nothing.
* If all can be resolved, the node is asked for with the names of the list, in the order in which
  they occur first, each with what its last value stands for. Or the operator is plain, and its
  update is no function. -/
theorem operator_parameters (library : Option Library) (transforms : Registry) (depthLimit : Nat)
    (ops : List Operation) (scope : ScopeId) (spec : OperatorSpec) :
    let s := (Session.new library transforms depthLimit).run ops
    let listed := spec.listed s.transforms
    scope < s.scopes.size →
      (∀ before name v after e t, listed = before ++ (name, v) :: after →
        (∀ b ∈ before, ∃ p t, Compile.resolve scope b.2 s = .ok p t) →
        Compile.resolve scope v s = .error e t →
        ∃ s', Compile.operator scope spec s = .error e s' ∧ s.Untouched s') ∧
      ((∀ b ∈ listed, ∃ p t, Compile.resolve scope b.2 s = .ok p t) →
        ∃ mid, s.Untouched mid ∧
          ((∃ behavior params,
            Compile.operator scope spec s = Compile.make scope spec behavior params mid ∧
              params.AreLast listed (mid.Resolves scope)) ∨
          ∃ e v, Compile.operator scope spec s = .error e mid ∧
            Compile.transform? spec s.transforms = none ∧ spec.update = some v ∧
            Compile.NoUpdate scope v mid e)) := by
  intro s listed known
  have hs : s.Outlook library scope (s.scopes.node? scope) :=
    ⟨.run (Session.bound_new library transforms depthLimit) ops, known, rfl⟩
  have hcollects := Compile.collects_prepare hs spec
  -- The first value that cannot be resolved in this session is the first fault of the list.
  have hfirst : ∀ before name v after e t, listed = before ++ (name, v) :: after →
      (∀ b ∈ before, ∃ p t, Compile.resolve scope b.2 s = .ok p t) →
      Compile.resolve scope v s = .error e t →
      faultIn library (s.scopes.node? scope) listed = some e := by
    intro before name v after e t hlisted hbefore hv
    rw [hlisted]
    exact Compile.faultIn_eq_some hs hbefore hv
  -- The node is asked for only when all has been prepared, so it is `prepare` that decides.
  rw [Compile.operator_eq, Graph.bind_run]
  cases hprepare : Compile.prepare scope spec s with
  | error e s' =>
    obtain ⟨hshared, hwhy⟩ := hcollects.error hprepare
    refine ⟨fun before name v after e' t hlisted hbefore hv => ⟨s', ?_, hshared.untouched⟩, ?_⟩
    · have he' := hfirst before name v after e' t hlisted hbefore hv
      obtain hsome | ⟨hnone, -⟩ := hwhy
      · rw [Option.some.inj (hsome.symm.trans he')]
      · cases hnone.symm.trans he'
    · intro hall
      obtain hsome | ⟨-, hplain, v, hupdate, hv⟩ := hwhy
      · cases hsome.symm.trans (Compile.faultIn_eq_none hs hall)
      · exact ⟨s', hshared.untouched, .inr ⟨e, v, rfl, hplain, hupdate, hv⟩⟩
  | ok r mid =>
    obtain ⟨hnone, hshared, hcollected⟩ := hcollects.ok hprepare
    refine ⟨fun before name v after e t hlisted hbefore hv => ?_, fun _ => ?_⟩
    · cases hnone.symm.trans (hfirst before name v after e t hlisted hbefore hv)
    · exact ⟨mid, hshared.untouched,
        .inl ⟨r.1, r.2, rfl, hcollected.areLast (hs.shared hshared)⟩⟩

/-- Whether a step succeeds. -/
def Compile.succeeds {α : Type} (m : Compile α) (s : Session) : Bool :=
  match m s with
  | .ok .. => true
  | .error .. => false

theorem Compile.exists_of_succeeds {α : Type} {m : Compile α} {s : Session}
    (h : m.succeeds s = true) : ∃ a s', m s = .ok a s' := by
  unfold succeeds at h
  cases hm : m s with
  | ok a s' => exact ⟨a, s', rfl⟩
  | error e s' =>
    rw [hm] at h
    cases h

/-- The error of a step that fails. -/
def Compile.failure? {α : Type} (m : Compile α) (s : Session) : Option CompileError :=
  match m s with
  | .ok .. => none
  | .error e _ => some e

theorem Compile.exists_of_failure? {α : Type} {m : Compile α} {s : Session} {e : CompileError}
    (h : m.failure? s = some e) : ∃ s', m s = .error e s' := by
  unfold failure? at h
  cases hm : m s with
  | ok a s' =>
    rw [hm] at h
    cases h
  | error e' s' =>
    rw [hm] at h
    exact ⟨s', by rw [Option.some.inj h]⟩

/-- A reference to an operator. -/
def operatorReference (id : String) : Json := .object [("$ref", .string id)]

/-- An operator with a shade, and a text that brings along another shade and a size. -/
def shadedLabel : OperatorSpec :=
  { OperatorSpec.named "label" with
    value := some (.object [("shade", operatorReference "a")])
    params := some (.ofList [("text", .object [("$expr", .string "d"),
      ("$params", .object [("shade", .bool true), ("size", operatorReference "a")])])]) }

/-- The shade of the text counts, and it stands where the shade of the value stood. -/
theorem operator_parameters_shaded :
    let s := (Session.new none .empty 64).run [.compile ⟨[.named "a"], [], []⟩]
    ∃ mid behavior params,
      Compile.operator ScopeTree.rootId shadedLabel s =
        Compile.make ScopeTree.rootId shadedLabel behavior params mid ∧
      params.keys = ["shade", "size", "text"] ∧
      params.get? "shade" = some (.literal (.bool true)) := by
  intro s
  have hlisted : shadedLabel.listed s.transforms = [("shade", operatorReference "a"),
      ("shade", .bool true), ("size", operatorReference "a"),
      ("text", .object [("$expr", .string "d"),
        ("$params", .object [("shade", .bool true), ("size", operatorReference "a")])])] := by
    cbv
  have hresolved : ∀ b ∈ shadedLabel.listed s.transforms,
      ∃ p t, Compile.resolve ScopeTree.rootId b.2 s = .ok p t := by
    rw [hlisted]
    simp only [List.forall_mem_cons]
    refine ⟨Compile.exists_of_succeeds ?_, Compile.exists_of_succeeds ?_,
      Compile.exists_of_succeeds ?_, Compile.exists_of_succeeds ?_, by simp⟩
    all_goals
      simp only [s]
      cbv
  obtain ⟨mid, -, ⟨behavior, params, hoperator, hparams⟩ | ⟨e, v, -, -, hupdate, -⟩⟩ :=
    (operator_parameters none .empty 64 [.compile ⟨[.named "a"], [], []⟩] ScopeTree.rootId
      shadedLabel (by decide +kernel)).2 hresolved
  · obtain ⟨p, hp, hresolves⟩ := hparams.last [("shade", operatorReference "a")] "shade"
      (.bool true) _ hlisted (by simp)
    refine ⟨mid, behavior, params, hoperator, ?_, ?_⟩
    · refine hparams.keys.trans ?_
      rw [hlisted]
      rfl
    · rw [hp]
      have hp' := hresolves.resolve
      cases hp'
      rfl
  · cases hupdate

end Dataflow
