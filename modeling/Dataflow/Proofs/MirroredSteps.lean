import Dataflow.Proofs.NestedCopies

/-!
# The same copy in two sessions

Two sessions that look the same from a scope (`Twins`) need not be the same: one may have more nodes
and scopes than the other. A copy that is made below this scope is the same in both, up to the
numbers that are handed out for it. `Mirrors w c m n done` says so of a step `m` that is made in the
first session and its counterpart `n` in the second, where each session has been joined by the copy
`c` so far: both succeed, or both fail with the same error, and both add the same to the copy.

`Mirrors` passes through every way of putting steps together, so each function of `Compile` has one
lemma, in the order in which they call each other.
-/

namespace Dataflow

/-! ## Two sessions -/

/-- Two sessions that look the same from one of their scopes. What is handed out later may have
greater numbers in the second. -/
structure Twins where
  here : Session
  there : Session
  parent : ScopeId
  transforms : there.transforms = here.transforms
  depthLimit : there.depthLimit = here.depthLimit
  graph_size_le : here.graph.size ≤ there.graph.size
  scopes_size_le : here.scopes.size ≤ there.scopes.size
  known : parent < here.scopes.size
  itemPath : there.scopes.itemPath parent = here.scopes.itemPath parent
  library : there.scopes.library? parent = here.scopes.library? parent
  nodes : ∀ id, there.scopes.node? parent id =
    (here.scopes.node? parent id).map (Renaming.between here there).handle
  functions : ∀ key, there.scopes.function? parent key =
    (here.scopes.function? parent key).map (Function.rename (.between here there))
  targets_here : here.graph.TargetsExist
  targets_there : there.graph.TargetsExist

namespace Twins

variable (w : Twins)

/-- From the numbers of the first session to those of the second. -/
def between : Renaming := .between w.here w.there

/-- The first session with a copy. -/
def hereWith (c : Copy) : Session := w.here.joined w.parent c

/-- The second session with the same copy. -/
def thereWith (c : Copy) : Session := w.there.joined w.parent (c.rename w.between)

/-- The copy keeps to itself in the first session. -/
abbrev Sound (c : Copy) : Prop := c.Sound w.here.graph.size w.parent

/-- The handle names a node that the copy has in the first session. -/
abbrev Owns (c : Copy) (h : Handle) : Prop := c.growth.Owns w.here.graph.size h

variable {c : Copy} {q : Request}

/-! ### The numbers that are handed out -/

theorem scope_new : w.between.scope w.here.scopes.size = w.there.scopes.size :=
  shift_add w.here.scopes.size w.there.scopes.size 0

theorem known_there : w.parent < w.there.scopes.size :=
  Nat.lt_of_lt_of_le w.known w.scopes_size_le

theorem scope_parent : w.between.scope w.parent = w.parent := shift_of_lt w.known

theorem serial_new (k : Nat) :
    w.between.serial (w.here.nextSerial + k) = w.there.nextSerial + k := shift_add _ _ k

theorem size_hereWith (c : Copy) :
    (w.hereWith c).graph.size = w.here.graph.size + c.growth.nodes.length := Graph.size_grow _ _

theorem size_thereWith (c : Copy) :
    (w.thereWith c).graph.size = w.there.graph.size + c.growth.nodes.length := by
  show (w.there.graph.grow _).size = _
  simp only [Graph.size_grow, Copy.rename, Growth.rename, List.length_map]

/-- Corresponding handles name nodes of corresponding sessions. -/
theorem handle_lt (c : Copy) (h : Handle) :
    w.between.handle h < (w.thereWith c).graph.size ↔ h < (w.hereWith c).graph.size := by
  rw [size_hereWith, size_thereWith]
  exact shift_lt_add w.graph_size_le h _

/-- The next node gets corresponding handles. -/
theorem handle_new (c : Copy) :
    w.between.handle (w.hereWith c).graph.size = (w.thereWith c).graph.size := by
  rw [size_hereWith, size_thereWith]
  exact shift_add _ _ _

/-- What a request makes is the next node of the copy. -/
theorem answer_hereWith (c : Copy) (h : q.isMaking = true) :
    (w.hereWith c).graph.answer q = w.here.graph.size + c.growth.nodes.length := by
  rw [← size_hereWith]
  cases q with
  | add behavior params react => rfl
  | stream source params => rfl
  | _ => exact nomatch h

theorem new_lt_hereWith (c : Copy) : w.here.scopes.size < (w.hereWith c).scopes.size :=
  Nat.lt_of_lt_of_eq (Nat.lt_succ_self _) Session.scopes_size_joined.symm

theorem new_lt_thereWith (c : Copy) : w.there.scopes.size < (w.thereWith c).scopes.size :=
  Nat.lt_of_lt_of_eq (Nat.lt_succ_self _) Session.scopes_size_joined.symm

/-! ### Changes and requests -/

/-- The graphs refuse corresponding requests for corresponding reasons. -/
theorem refusal?_thereWith (c : Copy) (q : Request) :
    (w.thereWith c).graph.refusal? (q.rename w.between) =
      ((w.hereWith c).graph.refusal? q).map (GraphError.rename w.between) :=
  Graph.refusal?_rename (w.handle_lt c) q

theorem edited_hereWith (c : Copy) (f : Scope → Scope) :
    (w.hereWith c).edited w.here.scopes.size f = w.hereWith (c.edited f) :=
  Session.edited_joined f

variable {w}

/-- Corresponding changes of the new scope leave the sessions with the same copy. -/
theorem edited_thereWith {f g : Scope → Scope}
    (h : ∀ sc : Scope, (f sc).rename w.between = g (sc.rename w.between)) :
    (w.thereWith c).edited w.there.scopes.size g = w.thereWith (c.edited f) := by
  have hcopy : (c.edited f).rename w.between = (c.rename w.between).edited g := by
    simp only [Copy.rename, Copy.edited, h]
  rw [thereWith, thereWith, hcopy]
  exact Session.edited_joined g

/-- A copy has corresponding nodes in both sessions. -/
theorem owns_rename {h : Handle} (ho : w.Owns c h) :
    (c.rename w.between).growth.Owns w.there.graph.size (w.between.handle h) := by
  have hhere : h < (w.hereWith c).graph.size := by
    rw [size_hereWith]
    exact ho.2
  constructor
  · -- A node that was there before in the second session would have been in the first.
    exact Nat.not_lt.mp fun hlt => Nat.not_lt.mpr ho.1 ((shift_lt w.graph_size_le h).mp hlt)
  · exact Nat.lt_of_lt_of_eq ((w.handle_lt c h).mpr hhere) (Graph.size_grow _ _)

theorem concerns_rename (hq : q.Concerns (w.Owns c)) :
    (q.rename w.between).Concerns
      ((c.rename w.between).growth.Owns w.there.graph.size) := by
  cases q with
  | connect parent children =>
    obtain ⟨child, rfl, ho⟩ := hq
    exact ⟨_, rfl, owns_rename ho⟩
  | addTarget source target => exact owns_rename hq
  | ingest node data format => exact owns_rename hq
  | fetch node resource format => exact owns_rename hq
  | pulse node changes => exact owns_rename hq
  | _ => trivial

theorem sent_hereWith (hq : q.Concerns (w.Owns c)) :
    (w.hereWith c).sent q =
      match (w.hereWith c).graph.refusal? q with
      | none => w.hereWith (c.carried w.here.graph.size q)
      | some _ => w.hereWith (c.refused q) := Session.sent_joined w.targets_here hq

/-- Corresponding requests leave the sessions with the same copy. -/
theorem sent_thereWith (hq : q.Concerns (w.Owns c)) :
    (w.thereWith c).sent (q.rename w.between) =
      match (w.hereWith c).graph.refusal? q with
      | none => w.thereWith (c.carried w.here.graph.size q)
      | some _ => w.thereWith (c.refused q) := by
  have hsent : (w.thereWith c).sent (q.rename w.between) =
      match (w.thereWith c).graph.refusal? (q.rename w.between) with
      | none => w.there.joined w.parent
        ((c.rename w.between).carried w.there.graph.size (q.rename w.between))
      | some _ => w.there.joined w.parent ((c.rename w.between).refused (q.rename w.between)) :=
    Session.sent_joined w.targets_there (concerns_rename hq)
  rw [hsent, w.refusal?_thereWith]
  cases (w.hereWith c).graph.refusal? q with
  | none =>
    simp only [Option.map_none, thereWith]
    rw [Copy.rename_carried w.graph_size_le rfl hq]
  | some e =>
    simp only [Option.map_some, thereWith]
    rw [Copy.rename_refused]

/-! ### What is seen from the copy -/

theorem parent_rename (hc : w.Sound c) : (c.rename w.between).scope.parent = some w.parent := by
  show c.scope.parent.map _ = _
  rw [hc.parent, Option.map_some, w.scope_parent]

theorem node?_hereWith (hc : w.Sound c) (id : EntryId) :
    (w.hereWith c).scopes.node? w.here.scopes.size id =
      (c.scope.nodes.get? id).or (w.here.scopes.node? w.parent id) :=
  Session.lookup_joined (fun _ _ => rfl) hc.parent w.known

theorem node?_thereWith (hc : w.Sound c) (id : EntryId) :
    (w.thereWith c).scopes.node? w.there.scopes.size id =
      ((w.hereWith c).scopes.node? w.here.scopes.size id).map w.between.handle := by
  have hthere : (w.thereWith c).scopes.node? w.there.scopes.size id =
      ((c.scope.nodes.map w.between.handle).get? id).or (w.there.scopes.node? w.parent id) :=
    Session.lookup_joined (fun _ _ => rfl) (parent_rename hc) w.known_there
  rw [node?_hereWith hc, hthere, w.nodes, Table.get?_map, Option.map_or]
  rfl

theorem function?_thereWith (hc : w.Sound c) (key : MemoKey) :
    (w.thereWith c).scopes.function? w.there.scopes.size key =
      ((w.hereWith c).scopes.function? w.here.scopes.size key).map
        (Function.rename w.between) := by
  have hhere : (w.hereWith c).scopes.function? w.here.scopes.size key =
      (c.scope.functions.get? key).or (w.here.scopes.function? w.parent key) :=
    Session.lookup_joined (fun _ _ => rfl) hc.parent w.known
  have hthere : (w.thereWith c).scopes.function? w.there.scopes.size key =
      ((c.scope.functions.map (Function.rename w.between)).get? key).or
        (w.there.scopes.function? w.parent key) :=
    Session.lookup_joined (fun _ _ => rfl) (parent_rename hc) w.known_there
  rw [hhere, hthere, w.functions, Table.get?_map, Option.map_or]
  rfl

theorem library?_hereWith :
    (w.hereWith c).scopes.library? w.here.scopes.size = c.scope.library := by
  rw [ScopeTree.library?, hereWith, Session.scope?_joined_last]
  rfl

theorem library?_thereWith : (w.thereWith c).scopes.library? w.there.scopes.size =
    c.scope.library.map (Binding.rename w.between) := by
  rw [ScopeTree.library?, thereWith, Session.scope?_joined_last]
  rfl

end Twins

/-! ## Mirrored steps -/

/-- An error that names no scope and no node is the same under all numbers. -/
theorem CompileError.rename_of_isPlain {r : Renaming} {e : CompileError}
    (h : e.isPlain = true) : e.rename r = e := by
  cases e with
  | scopeNotFound id => exact nomatch h
  | graph source => exact nomatch h
  | inOperator id source => exact nomatch h
  | _ => rfl

namespace Compile

variable {α β : Type} {w : Twins} {c : Copy}

/-- Two steps have ended alike: with results for which `done` holds or with the same error, and with
the same copy. -/
inductive EndAlike (w : Twins) (c : Copy) (done : α → α → Copy → Prop) :
    EStateM.Result CompileError Session α → EStateM.Result CompileError Session α → Prop where
  | ok {a b : α} {c' : Copy} (later : c.Later c') (sound : w.Sound c') (h : done a b c') :
    EndAlike w c done (.ok a (w.hereWith c')) (.ok b (w.thereWith c'))
  | error {e e' : CompileError} {c' : Copy} (later : c.Later c') (sound : w.Sound c')
    (h : e' = e.rename w.between) :
    EndAlike w c done (.error e (w.hereWith c')) (.error e' (w.thereWith c'))

/-- The two steps end alike if the sessions have been joined by the same copy. -/
def Mirrors (w : Twins) (c : Copy) (m n : Compile α) (done : α → α → Copy → Prop) : Prop :=
  EndAlike w c done (m (w.hereWith c)) (n (w.thereWith c))

variable {done : α → α → Copy → Prop}

/-- Steps are mirrored if whatever they end with is alike. -/
theorem mirrors_of_ends {m n : Compile α}
    (h : Ends m (w.hereWith c)
      (fun a s => Ends n (w.thereWith c) (fun b t => EndAlike w c done (.ok a s) (.ok b t))
        fun e t => EndAlike w c done (.ok a s) (.error e t))
      fun e s => Ends n (w.thereWith c) (fun b t => EndAlike w c done (.error e s) (.ok b t))
        fun e' t => EndAlike w c done (.error e s) (.error e' t)) : Mirrors w c m n done := by
  unfold Mirrors
  unfold Ends at h
  cases hm : m (w.hereWith c) with
  | ok a s =>
    cases hn : n (w.thereWith c) with
    | ok b t => simpa only [hm, hn] using h
    | error e t => simpa only [hm, hn] using h
  | error e s =>
    cases hn : n (w.thereWith c) with
    | ok b t => simpa only [hm, hn] using h
    | error e' t => simpa only [hm, hn] using h

/-- What a mirrored step does in the first session. -/
theorem Mirrors.ends {m n : Compile α} (h : Mirrors w c m n done) :
    Ends m (w.hereWith c)
      (fun a s => ∃ b c', c.Later c' ∧ w.Sound c' ∧ done a b c' ∧ s = w.hereWith c')
      fun _ s => ∃ c', c.Later c' ∧ w.Sound c' ∧ s = w.hereWith c' := by
  unfold Mirrors at h
  unfold Ends
  generalize m (w.hereWith c) = x, n (w.thereWith c) = y at h ⊢
  cases h with
  | ok later sound h => exact ⟨_, _, later, sound, h, rfl⟩
  | error later sound => exact ⟨_, later, sound, rfl⟩

/-! ### Putting steps together -/

theorem mirrors_pure (hc : w.Sound c) {a b : α} (h : done a b c) :
    Mirrors w c (pure a) (pure b) done := .ok (.refl c) hc h

theorem mirrors_throw (hc : w.Sound c) (e : CompileError) :
    Mirrors w c (throw e) (throw (e.rename w.between)) done := .error (.refl c) hc rfl

theorem Mirrors.mono {m n : Compile α} {done' : α → α → Copy → Prop}
    (h : Mirrors w c m n done) (hd : ∀ a b c', c.Later c' → done a b c' → done' a b c') :
    Mirrors w c m n done' := by
  unfold Mirrors at h ⊢
  generalize m (w.hereWith c) = x, n (w.thereWith c) = y at h ⊢
  cases h with
  | ok later sound h => exact .ok later sound (hd _ _ _ later h)
  | error later sound h => exact .error later sound h

/-- Nothing needs to be known of the results. -/
abbrev Any : α → α → Copy → Prop := fun _ _ _ => True

theorem Mirrors.any {m n : Compile α} (h : Mirrors w c m n done) : Mirrors w c m n Any :=
  h.mono fun _ _ _ _ _ => trivial

/-- What follows two mirrored steps is made with a later copy. -/
theorem mirrors_bind {m n : Compile α} {f g : α → Compile β} {done' : β → β → Copy → Prop}
    (hm : Mirrors w c m n done)
    (hf : ∀ a b c', c.Later c' → w.Sound c' → done a b c' → Mirrors w c' (f a) (g b) done') :
    Mirrors w c (m >>= f) (n >>= g) done' := by
  unfold Mirrors at hm ⊢
  rw [Graph.bind_run, Graph.bind_run]
  generalize m (w.hereWith c) = x, n (w.thereWith c) = y at hm
  cases hm with
  | error later sound h => exact .error later sound h
  | ok later sound h =>
    -- Both go on from the same copy, so what follows is compared in turn.
    have hnext := hf _ _ _ later sound h
    unfold Mirrors at hnext
    show EndAlike w c done' (f _ _) (g _ _)
    generalize f _ (w.hereWith _) = x, g _ (w.thereWith _) = y at hnext
    cases hnext with
    | ok later' sound' h' => exact .ok (later.trans later') sound' h'
    | error later' sound' h' => exact .error (later.trans later') sound' h'

theorem mirrors_map {m n : Compile α} {f g : α → β} {done' : β → β → Copy → Prop}
    (h : Mirrors w c m n fun a b c' => done' (f a) (g b) c') :
    Mirrors w c (f <$> m) (g <$> n) done' := by
  rw [map_eq_pure_bind, map_eq_pure_bind]
  exact mirrors_bind h fun a b c' _ hc' hd => mirrors_pure hc' hd

theorem mirrors_discard {m n : Compile α} {done' : Unit → Unit → Copy → Prop}
    (h : Mirrors w c m n fun _ _ c' => done' () () c') :
    Mirrors w c (discard m) (discard n) done' := mirrors_map h

/-- What is read from the sessions is read from the copy and from what was there before. -/
theorem mirrors_get {f g : Session → Compile α}
    (h : Mirrors w c (f (w.hereWith c)) (g (w.thereWith c)) done) :
    Mirrors w c (get >>= f) (get >>= g) done := h

theorem mirrors_throw_plain (hc : w.Sound c) {e : CompileError} (h : e.isPlain = true) :
    Mirrors w c (throw e) (throw e) done := by
  have hthrow : Mirrors w c (throw e) (throw (e.rename w.between)) done := mirrors_throw hc e
  rwa [CompileError.rename_of_isPlain h] at hthrow

/-- A computation that does not look at the session comes to the same twice. -/
theorem mirrors_ofExcept (hc : w.Sound c) {x : Except CompileError α} (hx : Plain x)
    (h : ∀ a, x = .ok a → done a a c) :
    Mirrors w c (MonadExcept.ofExcept x) (MonadExcept.ofExcept x) done := by
  cases x with
  | ok a => exact mirrors_pure hc (h a rfl)
  | error e => exact mirrors_throw_plain hc (hx e rfl)

theorem mirrors_within {id : EntryId} {m n : Compile α} (h : Mirrors w c m n done) :
    Mirrors w c (within id m) (within id n) done := by
  unfold Mirrors at h ⊢
  unfold within EStateM.adaptExcept
  generalize m (w.hereWith c) = x, n (w.thereWith c) = y at h
  cases h with
  | ok later sound h => exact .ok later sound h
  | error later sound h =>
    refine .error later sound ?_
    rw [CompileError.rename_within, h]

theorem mirrors_forM {γ : Type} {xs : List γ} {f g : γ → Compile Unit} (hc : w.Sound c)
    (h : ∀ x ∈ xs, ∀ c', c.Later c' → w.Sound c' → Mirrors w c' (f x) (g x) Any) :
    Mirrors w c (forM xs f) (forM xs g) Any := by
  induction xs generalizing c with
  | nil => exact mirrors_pure hc trivial
  | cons x rest ih =>
    rw [List.forM_cons, List.forM_cons]
    refine mirrors_bind (h x List.mem_cons_self c (.refl c) hc) fun _ _ c' hlater hc' _ => ?_
    refine ih hc' fun y hy c'' hlater' hc'' => ?_
    exact h y (List.mem_cons_of_mem _ hy) c'' (hlater.trans hlater') hc''

theorem mirrors_forM_option {γ : Type} {x : Option γ} {f g : γ → Compile Unit} (hc : w.Sound c)
    (h : ∀ a, x = some a → Mirrors w c (f a) (g a) Any) :
    Mirrors w c (forM x f) (forM x g) Any := by
  cases x with
  | none => exact mirrors_pure hc trivial
  | some a => exact h a rfl

theorem mirrors_mapM_option {γ : Type} {x : Option γ} {f g : γ → Compile α} {F : α → α}
    (hc : w.Sound c) (h : ∀ a, x = some a → Mirrors w c (f a) (g a) fun a b _ => b = F a) :
    Mirrors w c (x.mapM f) (x.mapM g) fun a b _ => b = a.map F := by
  cases x with
  | none => exact mirrors_pure hc rfl
  | some a =>
    refine mirrors_map ((h a rfl).mono fun a b _ _ hb => ?_)
    rw [hb]
    rfl

theorem mirrors_mapM {γ : Type} {xs : List γ} {f g : γ → Compile α} {F : α → α} (hc : w.Sound c)
    (h : ∀ x ∈ xs, ∀ c', w.Sound c' → Mirrors w c' (f x) (g x) fun a b _ => b = F a) :
    Mirrors w c (xs.mapM f) (xs.mapM g) fun a b _ => b = a.map F := by
  induction xs generalizing c with
  | nil => exact mirrors_pure hc rfl
  | cons x rest ih =>
    rw [List.mapM_cons, List.mapM_cons]
    refine mirrors_bind (h x List.mem_cons_self c hc) fun a _ c₁ _ hc₁ hb => ?_
    subst hb
    have hrest := ih hc₁ fun y hy => h y (List.mem_cons_of_mem _ hy)
    refine mirrors_bind hrest fun as _ c₂ _ hc₂ hbs => ?_
    subst hbs
    exact mirrors_pure hc₂ rfl

/-! ### Elementary steps -/

/-- An entry has corresponding nodes. If the copy has recorded it, it is what the copy has. -/
theorem mirrors_node (hc : w.Sound c) (id : EntryId) :
    Mirrors w c (node w.here.scopes.size id) (node w.there.scopes.size id) fun a b c' =>
      b = w.between.handle a ∧ c' = c ∧
        (w.hereWith c).scopes.node? w.here.scopes.size id = some a := by
  have hthere := Twins.node?_thereWith hc id
  refine mirrors_of_ends ?_
  rw [ends_node]
  constructor
  · intro h hh
    rw [hh] at hthere
    rw [ends_node, hthere]
    refine ⟨fun h' hh' => ?_, fun hnone => nomatch hnone⟩
    exact .ok (.refl c) hc ⟨(Option.some.inj hh').symm, rfl, hh⟩
  · intro hnone
    rw [hnone] at hthere
    rw [ends_node, hthere]
    exact ⟨fun h' hh' => (nomatch hh'), fun _ => .error (.refl c) hc rfl⟩

/-- Corresponding requests get corresponding answers. -/
theorem mirrors_send {q : Request} (hc : w.Sound c) (hq : q.Concerns (w.Owns c)) :
    Mirrors w c (send q) (send (q.rename w.between)) fun a b c' =>
      b = w.between.handle a ∧ (q.isMaking = true → w.Owns c' a) := by
  have hrefusal := w.refusal?_thereWith c q
  have hhere := Twins.sent_hereWith hq
  have hthere := Twins.sent_thereWith hq
  refine mirrors_of_ends ?_
  rw [ends_send]
  constructor
  · intro hok
    rw [hok] at hrefusal hhere hthere
    rw [ends_send, hrefusal, hhere, hthere]
    refine ⟨fun _ => ?_, fun e he => (nomatch he)⟩
    have hanswer := Graph.answer_rename (w.handle_new c) q
    refine .ok (c.later_carried _ q) (hc.carried hq) ⟨hanswer, fun hmaking => ?_⟩
    rw [w.answer_hereWith c hmaking]
    exact Growth.owns_made hmaking
  · intro e he
    rw [he] at hrefusal hhere hthere
    rw [ends_send, hrefusal, hhere, hthere]
    refine ⟨fun hnone => (nomatch hnone), fun e' he' => ?_⟩
    obtain rfl := Option.some.inj he'
    exact .error (c.later_refused q) (hc.refused q) rfl

/-- The copy records a node of its own. -/
theorem mirrors_record (slot : Slot) {handle : Handle} (hc : w.Sound c) (ho : w.Owns c handle) :
    Mirrors w c (write (·.modify w.here.scopes.size (slot.put handle)))
      (write (·.modify w.there.scopes.size (slot.put (w.between.handle handle))))
      fun _ _ c' => c' = c.edited (slot.put handle) := by
  refine mirrors_of_ends ?_
  rw [ends_modify]
  refine ⟨fun _ => ?_, fun hle => absurd hle (Nat.not_le.mpr (w.new_lt_hereWith c))⟩
  rw [ends_modify, w.edited_hereWith, Twins.edited_thereWith (Scope.rename_put slot handle)]
  refine ⟨fun _ => ?_, fun hle => absurd hle (Nat.not_le.mpr (w.new_lt_thereWith c))⟩
  exact .ok (c.later_put slot handle) (hc.put slot ho) rfl

/-- Corresponding functions are shared, if corresponding ones are made for the key. -/
theorem mirrors_shared (hc : w.Sound c) {key : MemoKey}
    {make make' : Nat → Except CompileError Function} (hplain : ∀ n, Plain (make n))
    (hmake : ∀ n, make' (w.between.serial n) = (make n).map (Function.rename w.between)) :
    Mirrors w c (shared w.here.scopes.size key make) (shared w.there.scopes.size key make')
      fun f g _ => g = f.rename w.between := by
  have hserial : (w.thereWith c).nextSerial = w.between.serial (w.hereWith c).nextSerial :=
    (w.serial_new c.serials).symm
  have hfound := Twins.function?_thereWith hc key
  refine mirrors_of_ends ?_
  rw [ends_shared]
  -- Either both find a function, or both make one, each under the next number of its session.
  cases hf : (w.hereWith c).scopes.function? w.here.scopes.size key with
  | some f =>
    rw [hf] at hfound
    show Ends (shared w.there.scopes.size key make') _ _ _
    rw [ends_shared, hfound]
    exact .ok (.refl c) hc rfl
  | none =>
    rw [hf] at hfound
    have hmade := hmake (w.hereWith c).nextSerial
    rw [← hserial] at hmade
    cases hm : make (w.hereWith c).nextSerial with
    | error e =>
      rw [hm] at hmade
      simp only [ends_shared, hfound, hmade, Option.map_none, Except.map]
      -- The number has been taken all the same.
      have hsame : e.rename w.between = e := CompileError.rename_of_isPlain (hplain _ e hm)
      exact .error c.later_counted hc.counted hsame.symm
    | ok f =>
      rw [hm] at hmade
      simp only [ends_shared, hfound, hmade, Option.map_none, Except.map]
      refine ⟨fun _ => ?_, fun hle => absurd hle (Nat.not_le.mpr (w.new_lt_hereWith c))⟩
      refine ⟨fun _ => ?_, fun hle => absurd hle (Nat.not_le.mpr (w.new_lt_thereWith c))⟩
      have hhere : (w.hereWith c).counted.edited w.here.scopes.size (Scope.share key f) =
          w.hereWith (c.counted.edited (Scope.share key f)) := w.edited_hereWith c.counted _
      have hthere : (w.thereWith c).counted.edited w.there.scopes.size
          (Scope.share key (f.rename w.between)) =
            w.thereWith (c.counted.edited (Scope.share key f)) :=
        Twins.edited_thereWith (c := c.counted) (Scope.rename_share key f)
      rw [hhere, hthere]
      exact .ok (c.later_counted.trans (Copy.later_share _ key f)) (hc.counted.share key f) rfl

end Compile

end Dataflow
