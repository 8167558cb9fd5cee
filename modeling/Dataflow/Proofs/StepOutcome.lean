import Dataflow.Compile.Specification
import Dataflow.Proofs.RequestEffects

/-!
# How a step of a compilation ends

`Ends m s done failed` says that the step `m` takes the session `s` either to a result and a
session with `done`, or to an error and a session with `failed`. A step that fails leaves a
session behind too, so both outcomes are described at once.

There is one lemma for each way to put steps together and one for each elementary step. With them
the steps of `Compile` are taken apart without a look at how their outcomes are stored.
-/

namespace Dataflow

namespace Compile

variable {α β : Type}

/-- From `s`, the step ends with `done` of its result, or with `failed` of its error. -/
def Ends (m : Compile α) (s : Session) (done : α → Session → Prop)
    (failed : CompileError → Session → Prop) : Prop :=
  match m s with
  | .ok a s' => done a s'
  | .error e s' => failed e s'

section

variable {m : Compile α} {s : Session} {done done' : α → Session → Prop}
  {failed failed' : CompileError → Session → Prop}

theorem Ends.ok {a : α} {s' : Session} (h : Ends m s done failed) (hm : m s = .ok a s') :
    done a s' := by
  simpa only [Ends, hm] using h

theorem Ends.error {e : CompileError} {s' : Session} (h : Ends m s done failed)
    (hm : m s = .error e s') : failed e s' := by
  simpa only [Ends, hm] using h

/-- A step that can only end in this way does. -/
theorem Ends.eq_ok {a : α} {t : Session}
    (h : Ends m s (fun b s' => b = a ∧ s' = t) fun _ _ => False) : m s = .ok a t := by
  unfold Ends at h
  cases hm : m s with
  | ok b s' =>
    rw [hm] at h
    obtain ⟨rfl, rfl⟩ := h
    rfl
  | error e s' =>
    rw [hm] at h
    exact h.elim

/-- What holds at the end may be weakened. -/
theorem Ends.mono (h : Ends m s done failed) (hd : ∀ a s', done a s' → done' a s')
    (hf : ∀ e s', failed e s' → failed' e s') : Ends m s done' failed' := by
  unfold Ends at h ⊢
  cases hm : m s with
  | ok a s' => exact hd a s' (by simpa only [hm] using h)
  | error e s' => exact hf e s' (by simpa only [hm] using h)

/-- Two descriptions of the end hold at once. -/
theorem Ends.and (h : Ends m s done failed) (h' : Ends m s done' failed') :
    Ends m s (fun a s' => done a s' ∧ done' a s') fun e s' => failed e s' ∧ failed' e s' := by
  unfold Ends at h h' ⊢
  cases hm : m s with
  | ok a s' => exact ⟨by simpa only [hm] using h, by simpa only [hm] using h'⟩
  | error e s' => exact ⟨by simpa only [hm] using h, by simpa only [hm] using h'⟩

/-- Two steps succeed where the first does, and then the second. -/
theorem bind_eq_ok {f : α → Compile β} {b : β} {s' : Session} :
    (m >>= f) s = .ok b s' ↔ ∃ a t, m s = .ok a t ∧ f a t = .ok b s' := by
  rw [Graph.bind_run]
  cases m s with
  | ok a t =>
    refine ⟨fun h => ⟨a, t, rfl, h⟩, ?_⟩
    rintro ⟨_, _, ⟨⟩, h⟩
    exact h
  | error e t => simp

/-- Two steps fail where the first does, or where the second does after the first. -/
theorem bind_eq_error {f : α → Compile β} {e : CompileError} {s' : Session} :
    (m >>= f) s = .error e s' ↔
      m s = .error e s' ∨ ∃ a t, m s = .ok a t ∧ f a t = .error e s' := by
  rw [Graph.bind_run]
  cases m s with
  | ok a t =>
    refine ⟨fun h => .inr ⟨a, t, rfl, h⟩, ?_⟩
    rintro (h | ⟨_, _, ⟨⟩, h⟩)
    · cases h
    · exact h
  | error e' t => simp

/-! ## Putting steps together -/

theorem ends_pure {a : α} : Ends (pure a : Compile α) s done failed ↔ done a s := Iff.rfl

theorem ends_throw {e : CompileError} :
    Ends (throw e : Compile α) s done failed ↔ failed e s := Iff.rfl

theorem ends_bind {f : α → Compile β} {done : β → Session → Prop} :
    Ends (m >>= f) s done failed ↔ Ends m s (fun a s' => Ends (f a) s' done failed) failed := by
  unfold Ends
  rw [Graph.bind_run]
  cases m s <;> exact Iff.rfl

theorem ends_map {f : α → β} {done : β → Session → Prop} :
    Ends (f <$> m) s done failed ↔ Ends m s (fun a s' => done (f a) s') failed := by
  rw [map_eq_pure_bind, ends_bind]
  exact Iff.rfl

theorem ends_discard {done : Unit → Session → Prop} :
    Ends (discard m) s done failed ↔ Ends m s (fun _ s' => done () s') failed := by
  have h : Ends ((fun _ => ()) <$> m) s done failed ↔ _ := ends_map
  exact h

theorem ends_get {done : Session → Session → Prop} :
    Ends (get : Compile Session) s done failed ↔ done s s := Iff.rfl

theorem ends_ofExcept {x : Except CompileError α} :
    Ends (MonadExcept.ofExcept x : Compile α) s done failed ↔
      (∀ a, x = .ok a → done a s) ∧ ∀ e, x = .error e → failed e s := by
  cases x with
  | ok a => simp [MonadExcept.ofExcept, ends_pure]
  | error e => simp [MonadExcept.ofExcept, ends_throw]

theorem ends_within {id : EntryId} :
    Ends (within id m) s done failed ↔
      Ends m s done (fun e s' => failed (CompileError.within id e) s') := by
  -- Naming the entry leaves the session that the failure has left behind.
  unfold Ends within EStateM.adaptExcept
  cases m s <;> exact Iff.rfl

/-- Naming the entry does not matter where nothing fails. -/
theorem within_eq_ok {id : EntryId} {a : α} {s' : Session} :
    within id m s = .ok a s' ↔ m s = .ok a s' := by
  unfold within EStateM.adaptExcept
  cases m s <;> simp

/-- A step that is named fails where the step does, with an error that has a name. -/
theorem within_eq_error {id : EntryId} {e : CompileError} {s' : Session} :
    within id m s = .error e s' ↔
      ∃ source, m s = .error source s' ∧ e = CompileError.within id source := by
  unfold within EStateM.adaptExcept
  cases m s with
  | ok a t => simp
  | error source t =>
    constructor
    · intro h
      cases h
      exact ⟨source, rfl, rfl⟩
    · rintro ⟨_, ⟨⟩, rfl⟩
      rfl

end

/-! ## Elementary steps -/

section

variable {s : Session} {failed : CompileError → Session → Prop}

theorem ends_freshSerial {done : Nat → Session → Prop} :
    Ends freshSerial s done failed ↔
      done s.nextSerial { s with nextSerial := s.nextSerial + 1 } := Iff.rfl

theorem ends_write {change : ScopeTree → Except CompileError ScopeTree}
    {done : Unit → Session → Prop} :
    Ends (write change) s done failed ↔
      (∀ t, change s.scopes = .ok t → done () { s with scopes := t }) ∧
        ∀ e, change s.scopes = .error e → failed e s := by
  unfold write
  rw [ends_bind, ends_get, ends_bind, ends_ofExcept]
  rfl

theorem ends_node {scope : ScopeId} {id : EntryId} {done : Handle → Session → Prop} :
    Ends (node scope id) s done failed ↔
      (∀ h, s.scopes.node? scope id = some h → done h s) ∧
        (s.scopes.node? scope id = none → failed (.unresolvedReference id) s) := by
  unfold node
  rw [ends_bind, ends_get]
  cases s.scopes.node? scope id with
  | some h => simp [ends_pure]
  | none => simp [ends_throw]

end

end Compile

/-- The session after a request to the graph, carried out or refused. -/
def Session.sent (s : Session) (r : Request) : Session :=
  { s with graph := s.graph.after r, journal := s.journal ++ [r] }

/-- The session after a change of one scope. -/
def Session.edited (s : Session) (scope : ScopeId) (f : Scope → Scope) : Session :=
  { s with scopes := ⟨s.scopes.scopes.modify scope f⟩ }

namespace Compile

section

variable {s : Session} {failed : CompileError → Session → Prop}

theorem ends_send {r : Request} {done : Handle → Session → Prop} :
    Ends (send r) s done failed ↔
      (s.graph.refusal? r = none → done (s.graph.answer r) (s.sent r)) ∧
        ∀ e, s.graph.refusal? r = some e → failed (.graph e) (s.sent r) := by
  -- The graph is replaced, and the journal gets longer, also where the request is refused.
  unfold Ends send Session.sent Graph.after
  rw [Graph.perform_eq]
  cases s.graph.refusal? r <;> simp

theorem ends_modify {scope : ScopeId} {f : Scope → Scope} {done : Unit → Session → Prop} :
    Ends (write (·.modify scope f)) s done failed ↔
      (scope < s.scopes.size → done () (s.edited scope f)) ∧
        (s.scopes.size ≤ scope → failed (.scopeNotFound scope) s) := by
  rw [ends_write]
  unfold ScopeTree.modify
  by_cases h : scope < s.scopes.size
  · have hle : ¬ s.scopes.size ≤ scope := Nat.not_le.mpr h
    simp [h, hle, Session.edited]
  · have hle : s.scopes.size ≤ scope := Nat.not_lt.mp h
    simp [h, hle]

end

end Compile

end Dataflow
