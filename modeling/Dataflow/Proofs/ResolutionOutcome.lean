import Dataflow.Proofs.QuietSteps
import Dataflow.Proofs.SharedInstances

/-!
# Whether a value can be resolved

Whether a value can be resolved in a scope depends on the value, on the entries that are seen from
the scope, and on which functions the library has. `Json.fault?` is the error where it cannot.
Functions that have been shared in the meantime do not matter: the text of one that was made before
can be compiled again.

Resolving does nothing but share functions (`Session.Sharing`). `Answers` says of a step that it
fails exactly over a given fault, and that what it gives it gives again later, at once and for good.
The main results are `answers_resolve`, and for several values in turn `ends_mapM_answers`.
-/

namespace Dataflow

/-! ## Sharing functions -/

/-- On the way from one session to another the scope has shared functions, and nothing else has been
done. -/
structure Session.Sharing (scope : ScopeId) (s s' : Session) : Prop where
  changes : Changes False scope s s'
  untouched : s.Untouched s'

/-- What resolving in a scope depends on besides the functions that are shared. -/
structure Session.Outlook (library : Option Library) (scope : ScopeId)
    (nodes : EntryId → Option Handle) (s : Session) : Prop where
  bound : s.Bound library
  known : scope < s.scopes.size
  nodes : s.scopes.node? scope = nodes

variable {library : Option Library} {scope : ScopeId} {nodes : EntryId → Option Handle}
  {s s' s'' : Session}

/-- Compiling goes on with the transforms it has started with. -/
theorem Changes.transforms {strict : Prop} (h : Changes strict scope s s') :
    s'.transforms = s.transforms := by
  induction h with
  | refl => rfl
  | tail _ hc ih =>
    rw [← ih]
    cases hc with
    | attach parent child =>
      unfold Session.attached
      split <;> rfl
    | _ => rfl

namespace Session

theorem Sharing.refl (s : Session) : s.Sharing scope s := ⟨.refl, .refl s⟩

theorem Sharing.trans (h : s.Sharing scope s') (h' : s'.Sharing scope s'') :
    s.Sharing scope s'' :=
  ⟨h.changes.trans h'.changes, h.untouched.trans h'.untouched⟩

theorem Sharing.function? (h : s.Sharing scope s') {id : ScopeId} {key : MemoKey} {f : Function}
    (hf : s.scopes.function? id key = some f) : s'.scopes.function? id key = some f :=
  h.changes.moves.keeps.function? hf

theorem Sharing.node? (h : s.Sharing scope s') (id : EntryId) :
    s'.scopes.node? scope id = s.scopes.node? scope id := h.untouched.nodes scope id

theorem Outlook.shared (hs : s.Outlook library scope nodes) (h : s.Sharing scope s') :
    s'.Outlook library scope nodes where
  bound := h.changes.moves.preserve (fun hm => hm.bound) hs.bound
  known := Nat.lt_of_lt_of_eq hs.known h.untouched.scopes_size.symm
  nodes := (funext h.node?).trans hs.nodes

/-- The library as it is bound to the scope. -/
theorem Outlook.library? (hs : s.Outlook library scope nodes) :
    ∃ context, s.scopes.library? scope = library.map fun l => ⟨l, context⟩ :=
  ⟨_, hs.bound.library? (List.getElem?_eq_getElem hs.known)⟩

end Session

/-! ## Faults -/

/-- The error of a computation that fails. -/
def faultOf {α : Type} : Except CompileError α → Option CompileError
  | .ok _ => none
  | .error e => some e

/-- Why no function can be made for a key. It does not matter under which number it would be made,
nor in which scope. -/
def MemoKey.fault? (library : Option Library) : MemoKey → Option CompileError
  | .expression text => faultOf <|
    Accessor.ofExpression 0 text [] none (library.map fun l => ⟨l, ScopeTree.rootId, []⟩)
  | .field path name => faultOf (Accessor.ofField 0 path name)
  | .compare fields directions => faultOf (Comparator.ofFields 0 fields directions)

/-- Why a reference cannot be resolved where these entries are seen. -/
def Reference.fault? (library : Option Library) (nodes : EntryId → Option Handle) :
    Reference → Option CompileError
  | .operator id => if (nodes id).isSome then none else some (.unresolvedReference id)
  | .expression e => (MemoKey.expression e.text).fault? library
  | .field path name => (MemoKey.field path name).fault? library
  | .compare fields directions => (MemoKey.compare fields directions).fault? library
  | .subflow _ => none

namespace Json

/-- Why a single value cannot be resolved. -/
def itemFault? (library : Option Library) (nodes : EntryId → Option Handle) (v : Json) :
    Option CompileError :=
  match Reference.decode v with
  | .error e => some e
  | .ok none => none
  | .ok (some r) => r.fault? library nodes

/-- Why a value cannot be resolved: the first item of an array that cannot decides. -/
def fault? (library : Option Library) (nodes : EntryId → Option Handle) : Json → Option CompileError
  | .array items => items.findSome? (itemFault? library nodes)
  | v => itemFault? library nodes v

end Json

theorem faultOf_ofExpression (serial : Nat) (text : String) (fields : List String)
    (name : Option String) (context : ScopeContext) :
    faultOf (Accessor.ofExpression serial text fields name (library.map fun l => ⟨l, context⟩)) =
      (MemoKey.expression text).fault? library := by
  -- Compiling looks at the functions of the library, not at the scope it is bound to.
  have hsame : Expr.compile text (library.map fun l => ⟨l, context⟩) =
      Expr.compile text (library.map fun l => ⟨l, ScopeTree.rootId, []⟩) := by
    cases library with
    | none => rfl
    | some l => exact Expr.compile_congr text l context ⟨ScopeTree.rootId, []⟩
  simp only [MemoKey.fault?, Accessor.ofExpression, hsame]
  cases Expr.compile text (library.map fun l => ⟨l, ScopeTree.rootId, []⟩) <;> rfl

theorem faultOf_ofField (serial : Nat) (path : String) (name : Option String) :
    faultOf (Accessor.ofField serial path name) = (MemoKey.field path name).fault? library := by
  simp only [MemoKey.fault?, Accessor.ofField]
  cases FieldPath.split path <;> rfl

theorem faultOf_ofFields (serial : Nat) (fields : List String) (directions : List Direction) :
    faultOf (Comparator.ofFields serial fields directions) =
      (MemoKey.compare fields directions).fault? library := by
  simp only [MemoKey.fault?, Comparator.ofFields]
  cases SortKey.ofFields fields directions <;> rfl

theorem faultOf_map {α β : Type} (x : Except CompileError α) (f : α → β) :
    faultOf (x.map f) = faultOf x := by
  cases x <;> rfl

/-- A key for which there is a function can have one. -/
theorem Function.Fits.fault? {key : MemoKey} {f : Function} {context : ScopeContext}
    (h : f.Fits (library.map fun l => ⟨l, context⟩) key) : key.fault? library = none := by
  have hbuilds := h.builds
  cases key with
  | expression text =>
    cases f with
    | comparator c => exact h.elim
    | accessor f =>
      rw [← faultOf_ofExpression f.serial text f.fields f.name context]
      exact congrArg faultOf hbuilds
  | field path name =>
    cases f with
    | comparator c => exact h.elim
    | accessor f =>
      rw [← faultOf_ofField f.serial path name]
      exact congrArg faultOf hbuilds
  | compare fields directions =>
    cases f with
    | accessor f => exact h.elim
    | comparator c =>
      rw [← faultOf_ofFields c.serial fields directions]
      exact congrArg faultOf hbuilds

/-- A key for which a function is seen can have one. -/
theorem Session.Outlook.fault?_of_function? (hs : s.Outlook library scope nodes) {key : MemoKey}
    {f : Function} (hf : s.scopes.function? scope key = some f) : key.fault? library = none := by
  obtain ⟨holder, -, sc, hsc, hget⟩ := ScopeTree.lookup_eq_some hf
  have hfits := hs.bound.fits holder sc key f hsc hget
  rw [hs.bound.bound holder sc hsc] at hfits
  exact hfits.fault?

/-! ## Steps that answer -/

namespace Compile

variable {α β : Type}

/-- From this session on the step gives this result at once. -/
def Repeats (scope : ScopeId) (s : Session) (m : Compile α) (a : α) : Prop :=
  ∀ t, s.Sharing scope t → m t = .ok a t

/-- The step fails exactly over this fault, if there is one. It does nothing but share functions,
and from then on it gives the same result again at once. -/
def Answers (library : Option Library) (scope : ScopeId) (nodes : EntryId → Option Handle)
    (m : Compile α) (fault : Option CompileError) : Prop :=
  ∀ s : Session, s.Outlook library scope nodes →
    Ends m s (fun a s' => fault = none ∧ s.Sharing scope s' ∧ Repeats scope s' m a)
      fun e s' => fault = some e ∧ s.Sharing scope s'

theorem Repeats.shared {m : Compile α} {a : α} (h : Repeats scope s m a)
    (hs : s.Sharing scope s') : Repeats scope s' m a :=
  fun t ht => h t (hs.trans ht)

namespace Answers

variable {m : Compile α} {fault : Option CompileError}

theorem ok (h : Answers library scope nodes m fault) (hs : s.Outlook library scope nodes)
    (hnone : fault = none) :
    ∃ a s', m s = .ok a s' ∧ s.Sharing scope s' ∧ Repeats scope s' m a := by
  cases hm : m s with
  | ok a s' => exact ⟨a, s', rfl, ((h s hs).ok hm).2⟩
  | error e s' =>
    rw [((h s hs).error hm).1] at hnone
    cases hnone

theorem error {e : CompileError} (h : Answers library scope nodes m fault)
    (hs : s.Outlook library scope nodes) (hsome : fault = some e) : ∃ s', m s = .error e s' := by
  cases hm : m s with
  | ok a s' =>
    rw [((h s hs).ok hm).1] at hsome
    cases hsome
  | error e' s' =>
    have he := ((h s hs).error hm).1.symm.trans hsome
    exact ⟨s', by rw [Option.some.inj he]⟩

end Answers

theorem answers_pure (a : α) : Answers library scope nodes (pure a) none :=
  fun s _ => ⟨rfl, .refl s, fun _ _ => rfl⟩

theorem answers_throw (e : CompileError) :
    Answers library scope nodes (throw e : Compile α) (some e) :=
  fun s _ => ⟨rfl, .refl s⟩

theorem answers_map {m : Compile α} {fault : Option CompileError} (f : α → β)
    (h : Answers library scope nodes m fault) : Answers library scope nodes (f <$> m) fault := by
  intro s hs
  rw [ends_map]
  refine (h s hs).mono (fun a s' ⟨hnone, hshared, ha⟩ => ⟨hnone, hshared, fun t ht => ?_⟩)
    fun _ _ h => h
  rw [map_eq_pure_bind, Graph.bind_run, ha t ht]
  rfl

/-- A step that works in the scope and makes no request does nothing but share functions. -/
theorem ends_sharing {m : Compile α} {found : α → List Handle} (hw : Works False scope [] m found)
    (hq : Quiet m) (s : Session) :
    Ends m s (fun _ s' => s.Sharing scope s') fun _ s' => s.Sharing scope s' :=
  ((hw s fun h => h.elim).and (hq s)).mono (fun _ _ ⟨hc, hu⟩ => ⟨hc.1, hu⟩)
    fun _ _ ⟨hc, hu⟩ => ⟨hc.1, hu⟩

/-! ### References -/

/-- Sharing a function fails exactly where none can be made. -/
theorem ends_shared_fault {key : MemoKey} {make : Nat → Except CompileError Function}
    (hs : s.Outlook library scope nodes) (hmake : ∀ n, faultOf (make n) = key.fault? library) :
    Ends (shared scope key make >>= fun f => pure (Parameter.ofFunction f)) s
      (fun _ _ => key.fault? library = none) fun e _ => key.fault? library = some e := by
  rw [ends_bind, ends_shared]
  cases hf : s.scopes.function? scope key with
  | some f => exact hs.fault?_of_function? hf
  | none =>
    -- The function is made under the next number, and kept because the scope is there.
    have hnext := hmake s.nextSerial
    cases hm : make s.nextSerial with
    | error e =>
      rw [hm] at hnext
      exact hnext.symm
    | ok f =>
      rw [hm] at hnext
      refine ⟨fun _ => hnext.symm, fun hge => ?_⟩
      exact absurd hs.known (Nat.not_lt.mpr hge)

/-- A reference to a function is resolved by sharing one, and the fault is that of the key. -/
theorem ends_resolveReference_fault (hs : s.Outlook library scope nodes) {r : Reference}
    {key : MemoKey} (hkey : r.memoKey? = some key) :
    Ends (resolveReference scope r) s (fun _ _ => r.fault? library nodes = none)
      fun e _ => r.fault? library nodes = some e := by
  cases r with
  | operator id => cases hkey
  | subflow spec => cases hkey
  | field path name =>
    exact ends_shared_fault hs fun n => (faultOf_map _ _).trans (faultOf_ofField n path name)
  | compare fields directions =>
    exact ends_shared_fault hs fun n =>
      (faultOf_map _ _).trans (faultOf_ofFields n fields directions)
  | expression e =>
    obtain ⟨context, hlib⟩ := hs.library?
    unfold resolveReference
    rw [ends_bind, ends_get, hlib]
    refine ends_shared_fault hs fun n => (faultOf_map _ _).trans ?_
    exact faultOf_ofExpression n e.text e.fields e.name context

theorem answers_resolveReference (r : Reference) :
    Answers library scope nodes (resolveReference scope r) (r.fault? library nodes) := by
  cases hkey : r.memoKey? with
  | some key =>
    intro s hs
    have hshares : Ends (resolveReference scope r) s (fun _ s' => s.Sharing scope s')
        fun _ s' => s.Sharing scope s' :=
      ends_sharing (works_resolveReference r) (quiet_resolveReference r) s
    have hfault := ends_resolveReference_fault hs hkey
    -- What has been shared is seen, so it is found again.
    have hseen : Ends (resolveReference scope r) s (fun p s' => ∃ f, p = .ofFunction f ∧
        s'.scopes.function? scope key = some f) fun _ _ => True := by
      unfold Ends
      cases hr : resolveReference scope r s with
      | ok p s' => exact function?_of_resolveReference hkey hr
      | error e s' => trivial
    refine ((hshares.and hfault).and hseen).mono ?_
      fun _ _ ⟨⟨hshared, hfault⟩, _⟩ => ⟨hfault, hshared⟩
    rintro _ s' ⟨⟨hshared, hnone⟩, f, rfl, hf⟩
    exact ⟨hnone, hshared, fun t ht => resolveReference_of_function? hkey (ht.function? hf)⟩
  | none =>
    cases r with
    | operator id =>
      intro s hs
      show Ends (node scope id >>= fun h => pure (Parameter.operator h)) s _ _
      rw [ends_bind, ends_node, hs.nodes]
      unfold Reference.fault?
      -- Sharing functions does not change which entries are seen.
      refine ⟨fun h hh => ⟨by simp [hh], .refl s, fun t ht => ?_⟩,
        fun hn => ⟨by simp [hn], .refl s⟩⟩
      show (node scope id >>= fun h => pure (Parameter.operator h)) t = _
      refine Ends.eq_ok ?_
      rw [ends_bind, ends_node, ht.node?, hs.nodes, hh]
      exact ⟨fun h' he => ⟨by rw [Option.some.inj he], rfl⟩, fun h => nomatch h⟩
    | subflow spec => exact answers_pure _
    | _ => cases hkey

/-! ### Values -/

theorem answers_resolveOne (v : Json) :
    Answers library scope nodes (resolveOne scope v) (v.itemFault? library nodes) := by
  unfold resolveOne Json.itemFault?
  cases Reference.decode v with
  | error e => exact answers_throw e
  | ok r =>
    cases r with
    | none => exact answers_pure _
    | some r => exact answers_resolveReference r

/-- Several values in turn: the first that has a fault decides, and if none has one, all results are
given again later. -/
theorem ends_mapM_answers {γ : Type} {f : γ → Compile α} {fault : γ → Option CompileError}
    (h : ∀ x, Answers library scope nodes (f x) (fault x)) (xs : List γ)
    (hs : s.Outlook library scope nodes) :
    Ends (xs.mapM f) s
      (fun as s' => xs.findSome? fault = none ∧ s.Sharing scope s' ∧
        List.Forall₂ (fun x a => Repeats scope s' (f x) a) xs as)
      fun e s' => xs.findSome? fault = some e ∧ s.Sharing scope s' := by
  induction xs generalizing s with
  | nil => exact ⟨rfl, .refl s, .nil⟩
  | cons x rest ih =>
    rw [List.mapM_cons, ends_bind, List.findSome?_cons]
    refine (h x s hs).mono ?_ fun e s' ⟨he, hshared⟩ => ⟨by rw [he], hshared⟩
    rintro a s₁ ⟨hnone, hshared, ha⟩
    rw [hnone, ends_bind]
    refine (ih (hs.shared hshared)).mono ?_ fun e s' ⟨he, hrest⟩ => ⟨he, hshared.trans hrest⟩
    rintro as s₂ ⟨hnones, hrest, has⟩
    exact ⟨hnones, hshared.trans hrest, .cons (ha.shared hrest) has⟩

/-- What is given again one by one is given again as a whole. -/
theorem repeats_mapM {γ : Type} {f : γ → Compile α} {xs : List γ} {as : List α}
    (h : List.Forall₂ (fun x a => Repeats scope s (f x) a) xs as) :
    Repeats scope s (xs.mapM f) as := by
  intro t ht
  induction h with
  | nil => rfl
  | cons ha _ ih =>
    rw [List.mapM_cons, Graph.bind_run, ha t ht]
    show (_ >>= _ : Compile _) t = _
    rw [Graph.bind_run, ih]
    rfl

theorem answers_resolve (v : Json) :
    Answers library scope nodes (resolve scope v) (v.fault? library nodes) := by
  cases v with
  | array items =>
    have hitems : Answers library scope nodes (items.mapM (resolveOne scope))
        (items.findSome? (Json.itemFault? library nodes)) := by
      intro s hs
      refine (ends_mapM_answers answers_resolveOne items hs).mono ?_ fun _ _ h => h
      exact fun ps s' ⟨hnone, hshared, hps⟩ => ⟨hnone, hshared, repeats_mapM hps⟩
    have hmap :
        resolve scope (.array items) = Parameter.array <$> items.mapM (resolveOne scope) := by
      rw [map_eq_pure_bind]
      rfl
    rw [hmap]
    exact answers_map Parameter.array hitems
  | _ => exact answers_resolveOne _

end Compile

end Dataflow
