import Dataflow.Proofs.OperationRuns
import Dataflow.Proofs.Renaming

/-!
# What is bound and shared in each scope

The library is bound to every scope anew, and a scope shares functions that have been made for it.
`Session.Bound` says what they compute: what their key says, under the binding of the scope that
shares them. `Session.Numbered` says that their serial numbers have been handed out. Both hold after
every run, so what is shared before a session goes on holds no number that is handed out later
(`Session.Bound.rename_function?`).
-/

namespace Dataflow

/-! ## Bindings -/

/-- The library is bound to every scope as its context says, and what a scope shares computes what
its key says under the binding of this scope. -/
structure Session.Bound (library : Option Library) (s : Session) : Prop where
  bound : ∀ id sc, s.scopes.scope? id = some sc →
    sc.library = library.map fun l => ⟨l, id, sc.itemPath⟩
  fits : ∀ id sc key f, s.scopes.scope? id = some sc → sc.functions.get? key = some f →
    f.Fits sc.library key

variable {library : Option Library} {s s' : Session}

theorem Session.bound_new (library : Option Library) (transforms : Registry)
    (depthLimit : Nat) : (Session.new library transforms depthLimit).Bound library := by
  have honly : ∀ {id sc}, (Session.new library transforms depthLimit).scopes.scope? id = some sc →
      id = 0 ∧ sc = Scope.fresh none [] (library.map fun l => ⟨l, ScopeTree.rootId, []⟩) := by
    intro id sc h
    cases id with
    | zero => exact ⟨rfl, (Option.some.inj h).symm⟩
    | succ n => exact nomatch h
  constructor
  · intro id sc h
    obtain ⟨rfl, rfl⟩ := honly h
    rfl
  · intro id sc key f h hf
    obtain ⟨rfl, rfl⟩ := honly h
    exact nomatch hf

theorem Session.scope?_edited {scope id : ScopeId} {f : Scope → Scope} :
    (s.edited scope f).scopes.scope? id =
      (s.scopes.scope? id).map fun sc => if scope = id then f sc else sc := by
  simp only [Session.edited, ScopeTree.scope?, List.getElem?_modify]
  by_cases h : scope = id <;> simp [h]

/-- A change of one scope that keeps its binding, and shares nothing that does not fit. -/
theorem Session.Bound.edited (hs : s.Bound library) {scope : ScopeId} {f : Scope → Scope}
    (hsame : ∀ sc, (f sc).library = sc.library ∧ (f sc).itemPath = sc.itemPath)
    (hfits : ∀ sc key g, s.scopes.scope? scope = some sc → (f sc).functions.get? key = some g →
      sc.functions.get? key = some g ∨ g.Fits sc.library key) :
    (s.edited scope f).Bound library := by
  constructor
  · intro id sc h
    rw [Session.scope?_edited] at h
    obtain ⟨old, hold, rfl⟩ := Option.map_eq_some_iff.mp h
    split
    · rw [(hsame old).1, (hsame old).2]
      exact hs.bound id old hold
    · exact hs.bound id old hold
  · intro id sc key g h hg
    rw [Session.scope?_edited] at h
    obtain ⟨old, hold, rfl⟩ := Option.map_eq_some_iff.mp h
    split at hg
    · rename_i heq
      subst heq
      rw [if_pos rfl, (hsame old).1]
      exact (hfits old key g hold hg).elim (hs.fits _ old key g hold) fun hf => hf
    · rename_i hne
      rw [if_neg hne]
      exact hs.fits id old key g hold hg

theorem Change.bound {strict : Prop} {scope : ScopeId} (hc : Change strict scope s s')
    (hs : s.Bound library) : s'.Bound library := by
  cases hc with
  | count => exact ⟨hs.bound, hs.fits⟩
  | share known fresh serial fits =>
    rename_i key f
    have hcounted : s.counted.Bound library := ⟨hs.bound, hs.fits⟩
    refine hcounted.edited (fun sc => ⟨rfl, rfl⟩) fun sc key' g hsc hg => ?_
    rw [Scope.share, Table.get?_insert] at hg
    split at hg
    · rename_i hkey
      -- What is new is the function that is shared, which fits the scope.
      obtain rfl := Option.some.inj hg
      have hlib : s.scopes.library? scope = sc.library := by
        rw [ScopeTree.library?, show s.scopes.scope? scope = some sc from hsc]
        rfl
      rw [← hkey, ← hlib]
      exact .inr fits
    · exact .inl hg
  | record slot known exist =>
    refine hs.edited (fun sc => ?_) fun sc key g _ hg => ?_
    · cases slot <;> exact ⟨rfl, rfl⟩
    · cases slot <;> exact .inl hg
  | request other exist => exact ⟨hs.bound, hs.fits⟩
  | attach parent child =>
    unfold Session.attached
    split <;> exact ⟨hs.bound, hs.fits⟩

/-- The scopes after a fork: those before, but for the list of forks, and one that is new. -/
theorem Session.scope?_forked {parent id : ScopeId} {above sc : Scope} {index : Nat}
    (h : (s.forked parent above index).scopes.scope? id = some sc) :
    (∃ old, s.scopes.scope? id = some old ∧ sc.library = old.library ∧
        sc.itemPath = old.itemPath ∧ sc.functions = old.functions) ∨
      id = s.scopes.size ∧ sc = Scope.fresh (some parent) (above.itemPath ++ [index])
        (above.library.map fun b => ⟨b.library, s.scopes.size, above.itemPath ++ [index]⟩) := by
  simp only [Session.forked, ScopeTree.scope?] at h
  by_cases hlt : id < s.scopes.scopes.length
  · rw [List.getElem?_append_left (by simpa using hlt), List.getElem?_modify] at h
    obtain ⟨old, hold, rfl⟩ := Option.map_eq_some_iff.mp h
    refine .inl ⟨old, hold, ?_⟩
    split <;> exact ⟨rfl, rfl, rfl⟩
  · have hle : s.scopes.scopes.length ≤ id := Nat.not_lt.mp hlt
    rw [List.getElem?_append_right (by simpa using hle), List.length_modify,
      List.getElem?_singleton] at h
    split at h
    · rename_i hzero
      have hge : id ≤ s.scopes.scopes.length := Nat.sub_eq_zero_iff_le.mp hzero
      exact .inr ⟨Nat.le_antisymm hge hle, (Option.some.inj h).symm⟩
    · cases h

theorem Move.bound {strict : Prop} (hm : Move strict s s') (hs : s.Bound library) :
    s'.Bound library := by
  cases hm with
  | change hc => exact hc.bound hs
  | fork index habove =>
    rename_i parent above
    constructor
    · intro id sc h
      obtain ⟨old, hold, hlib, hpath, -⟩ | ⟨rfl, rfl⟩ := Session.scope?_forked h
      · rw [hlib, hpath]
        exact hs.bound id old hold
      · -- The new scope rebinds the library of the scope above.
        show (above.library.map _) = _
        rw [hs.bound parent above habove, Option.map_map]
        rfl
    · intro id sc key f h hf
      obtain ⟨old, hold, hlib, -, hfun⟩ | ⟨rfl, rfl⟩ := Session.scope?_forked h
      · rw [hlib]
        rw [hfun] at hf
        exact hs.fits id old key f hold hf
      · exact nomatch hf

/-- What is bound and shared stays so over every run. -/
theorem Session.Bound.run (hs : s.Bound library) (ops : List Operation) :
    (s.run ops).Bound library :=
  Session.run_preserve (fun hm => hm.bound) (fun _ _ hs => ⟨hs.bound, hs.fits⟩) hs ops

/-! ## Numbers -/

/-- The numbers of all functions that are shared have been handed out. -/
def Session.Numbered (s : Session) : Prop :=
  ∀ sc ∈ s.scopes.scopes, ∀ f ∈ sc.functions.values, f.serial < s.nextSerial

theorem Session.numbered_new (library : Option Library) (transforms : Registry)
    (depthLimit : Nat) : (Session.new library transforms depthLimit).Numbered := by
  intro sc hsc
  obtain rfl := List.mem_singleton.mp hsc
  exact fun f hf => nomatch hf

/-- A change of one scope shares nothing but functions whose numbers have been handed out. -/
theorem Session.Numbered.edited {f : Scope → Scope} (hs : s.Numbered)
    (hf : ∀ sc, ∀ g ∈ (f sc).functions.values, g ∈ sc.functions.values ∨ g.serial < s.nextSerial)
    (scope : ScopeId) : (s.edited scope f).Numbered := by
  intro sc hsc g hg
  obtain hsc | ⟨old, hold, rfl⟩ := List.mem_of_mem_modify hsc
  · exact hs sc hsc g hg
  · exact (hf old g hg).elim (hs old hold g) fun h => h

theorem Change.numbered {strict : Prop} {scope : ScopeId} (hc : Change strict scope s s')
    (hs : s.Numbered) : s'.Numbered := by
  have hcounted : s.counted.Numbered := fun sc hsc f hf => Nat.lt_succ_of_lt (hs sc hsc f hf)
  cases hc with
  | count => exact hcounted
  | share known fresh serial fits =>
    refine hcounted.edited (fun sc g hg => ?_) scope
    obtain rfl | hold := Table.mem_values_insert hg
    · right
      rw [serial]
      exact Nat.lt_succ_self _
    · exact .inl hold
  | record slot known exist =>
    refine hs.edited (fun sc g hg => .inl ?_) scope
    cases slot <;> exact hg
  | request other exist => exact hs
  | attach parent child =>
    unfold Session.attached
    split <;> exact hs

theorem Move.numbered {strict : Prop} (hm : Move strict s s') (hs : s.Numbered) :
    s'.Numbered := by
  cases hm with
  | change hc => exact hc.numbered hs
  | fork index habove =>
    intro sc hsc f hf
    obtain ⟨i, hi⟩ := List.mem_iff_getElem?.mp hsc
    obtain ⟨old, hold, -, -, hfun⟩ | ⟨-, rfl⟩ := Session.scope?_forked hi
    · exact hs old (List.mem_of_getElem? hold) f (hfun ▸ hf)
    · exact nomatch hf

theorem Session.Numbered.run (hs : s.Numbered) (ops : List Operation) : (s.run ops).Numbered :=
  Session.run_preserve (fun hm => hm.numbered) (fun _ _ hs => hs) hs ops

/-- What is shared before a session goes on holds no number that is handed out later. -/
theorem Session.Bound.rename_function? (hs : s.Bound library) (hn : s.Numbered) {id : ScopeId}
    {key : MemoKey} {f : Function} (h : s.scopes.function? id key = some f) (t : Session) :
    f.rename (.between s t) = f := by
  obtain ⟨holder, -, sc, hsc, hget⟩ := ScopeTree.lookup_eq_some h
  have hholder : holder < s.scopes.size := (List.getElem?_eq_some_iff.mp hsc).choose
  have hserial : shift s.nextSerial t.nextSerial f.serial = f.serial :=
    shift_of_lt (hn sc (List.mem_of_getElem? hsc) f (Table.mem_values_of_get? hget))
  have hbinding : sc.library.map (Binding.rename (.between s t)) = sc.library := by
    rw [hs.bound holder sc hsc, Option.map_map]
    have hscope : shift s.scopes.size t.scopes.size holder = holder := shift_of_lt hholder
    cases library with
    | none => rfl
    | some l =>
      show some (Binding.mk l ⟨shift _ _ holder, sc.itemPath⟩) = _
      rw [hscope]
      rfl
  have hfits := hs.fits holder sc key f hsc hget
  cases f with
  | comparator c =>
    show Function.comparator { c with serial := shift _ _ c.serial } = _
    rw [show shift s.nextSerial t.nextSerial c.serial = c.serial from hserial]
  | accessor f =>
    -- An expression has captured the binding of the scope that shares it, and a path has none.
    have hbody : f.body.rename (.between s t) = f.body := by
      cases key with
      | expression text =>
        obtain ⟨e, -, hbody⟩ := hfits
        rw [hbody, Accessor.Body.rename, hbinding]
      | field path name =>
        obtain ⟨segments, -, hbody, -⟩ := hfits
        rw [hbody, Accessor.Body.rename]
      | compare fields directions => exact hfits.elim
    show Function.accessor { f with serial := shift _ _ f.serial, body := f.body.rename _ } = _
    rw [hbody, show shift s.nextSerial t.nextSerial f.serial = f.serial from hserial]

end Dataflow
