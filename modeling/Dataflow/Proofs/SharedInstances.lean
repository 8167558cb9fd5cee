import Dataflow.Proofs.NestedCopies
import Dataflow.Proofs.SharedExpressions

/-!
# Which instance a scope sees

A scope remembers the functions that it has made, and a scope below finds them there. `Move.shares`
says what a move does to what is remembered: nothing, or one new function is remembered in a scope
that sees none for the key, under the next number. From this it follows that nothing is ever
forgotten or replaced (`Session.Keeps`), that a scope goes on to see what it sees, and that no
number is used twice (`Session.Distinct`).

A scope below may see another function if it remembers one itself. It has made this one at a time
when it saw none, so before any function above it that is there now (`exists_moment`). The main
result is `shared_instances`.
-/

namespace Dataflow

/-! ## Chains -/

namespace ScopeTree

variable {t t' : ScopeTree} {id a scope : ScopeId} {below above : List ScopeId} {key : MemoKey}
  {f : Function}

/-- The function that a scope itself remembers for a key. -/
def entry? (t : ScopeTree) (id : ScopeId) (key : MemoKey) : Option Function :=
  (t.scope? id).bind fun sc => sc.functions.get? key

/-- A scope sees the function that is remembered nearest along its chain. -/
theorem function?_eq (t : ScopeTree) (id : ScopeId) (key : MemoKey) :
    t.function? id key = (t.chain id).findSome? fun a => t.entry? a key := rfl

/-- A chain starts with the scope itself and goes on, if it does, with that of an earlier one. -/
theorem chain_eq_cons (h : t.chain id = a :: above) :
    a = id ∧ (above = [] ∨ ∃ p < id, above = t.chain p) := by
  rw [chain] at h
  cases hsc : t.scope? id with
  | none =>
    rw [hsc] at h
    cases h
  | some sc =>
    rw [hsc] at h
    obtain ⟨rfl, rfl⟩ := List.cons.inj h
    refine ⟨rfl, ?_⟩
    split
    · exact .inl rfl
    · split
      · exact .inr ⟨_, ‹_›, rfl⟩
      · exact .inl rfl

/-- The chain of a scope along another chain is the rest of that one. -/
theorem chain_of_append (h : t.chain id = below ++ scope :: above) :
    t.chain scope = scope :: above := by
  induction id using Nat.strongRecOn generalizing below with
  | ind id ih =>
    cases below with
    | nil =>
      obtain ⟨rfl, -⟩ := chain_eq_cons h
      exact h
    | cons b below =>
      obtain ⟨rfl, hnil | ⟨p, hlt, hp⟩⟩ := chain_eq_cons h
      · simp at hnil
      · exact ih p hlt hp.symm

/-- A scope comes after all scopes above it. -/
theorem le_of_mem_chain (h : a ∈ t.chain id) : a ≤ id := by
  induction id using Nat.strongRecOn with
  | ind id ih =>
    cases hchain : t.chain id with
    | nil => simp [hchain] at h
    | cons b above =>
      obtain ⟨rfl, habove⟩ := chain_eq_cons hchain
      rw [hchain] at h
      obtain rfl | h := List.mem_cons.mp h
      · exact Nat.le_refl _
      · obtain rfl | ⟨p, hlt, rfl⟩ := habove
        · exact nomatch h
        · exact Nat.le_trans (ih p hlt h) (Nat.le_of_lt hlt)

theorem lt_of_mem_above (h : t.chain id = id :: above) (ha : a ∈ above) : a < id := by
  obtain ⟨-, rfl | ⟨p, hlt, rfl⟩⟩ := chain_eq_cons h
  · exact nomatch ha
  · exact Nat.lt_of_le_of_lt (le_of_mem_chain ha) hlt

/-- The chain of one of the first scopes does not depend on the others. -/
theorem chain_of_first {n : Nat}
    (hparent : ∀ id < n, (t'.scope? id).map Scope.parent = (t.scope? id).map Scope.parent)
    (hid : id < n) : t'.chain id = t.chain id := by
  induction id using Nat.strongRecOn with
  | ind id ih =>
    have hp := hparent id hid
    rw [chain, chain]
    cases hsc : t.scope? id with
    | none =>
      rw [hsc, Option.map_none, Option.map_eq_none_iff] at hp
      rw [hp]
    | some sc =>
      obtain ⟨sc', hsc', hsame⟩ := Option.map_eq_some_iff.mp (hp.trans (by rw [hsc]; rfl))
      rw [hsc']
      simp only [hsame]
      cases sc.parent with
      | none => rfl
      | some p =>
        by_cases hlt : p < id
        · simp only [if_pos hlt, ih p hlt (Nat.lt_trans hlt hid)]
        · simp only [if_neg hlt]

end ScopeTree

/-! ## What a move does -/

variable {strict : Prop} {s s' s'' : Session} {scope id a : ScopeId} {key : MemoKey}
  {f g : Function}

/-- A change of one scope that keeps what it remembers. -/
theorem Session.entry?_edited {edit : Scope → Scope}
    (h : ∀ sc, (edit sc).functions = sc.functions) :
    (s.edited scope edit).scopes.entry? a key = s.scopes.entry? a key := by
  rw [ScopeTree.entry?, Session.scope?_edited, ScopeTree.entry?]
  cases s.scopes.scope? a with
  | none => rfl
  | some sc =>
    simp only [Option.map_some, Option.bind_some]
    split
    · rw [h]
    · rfl

/-- The scope that shares a function remembers it, and nothing else is remembered anew. -/
theorem Session.entry?_share (known : scope < s.scopes.size) {other : MemoKey} :
    (s.edited scope (Scope.share key f)).scopes.entry? a other =
      if scope = a ∧ key = other then some f else s.scopes.entry? a other := by
  rw [ScopeTree.entry?, Session.scope?_edited, ScopeTree.entry?]
  by_cases h : scope = a
  · subst h
    have hsc : s.scopes.scope? scope = some s.scopes.scopes[scope] := List.getElem?_eq_getElem known
    rw [hsc]
    simp [Scope.share, Table.get?_insert]
  · simp [h]

/-- A new scope remembers nothing. -/
theorem Session.entry?_forked (parent : ScopeId) (above : Scope) (index : Nat) :
    (s.forked parent above index).scopes.entry? a key = s.scopes.entry? a key := by
  by_cases ha : a < s.scopes.size
  · rw [ScopeTree.entry?, Session.forked_eq_joined, Session.scope?_joined ha, ScopeTree.entry?]
    cases s.scopes.scope? a with
    | none => rfl
    | some sc =>
      simp only [Option.map_some, Option.bind_some]
      split <;> rfl
  · have hnone : s.scopes.scope? a = none := List.getElem?_eq_none (Nat.not_lt.mp ha)
    rw [ScopeTree.entry?, ScopeTree.entry?, hnone]
    cases hsc : (s.forked parent above index).scopes.scope? a with
    | none => rfl
    | some sc =>
      obtain ⟨old, hold, -⟩ | ⟨-, rfl⟩ := Session.scope?_forked hsc
      · rw [hnone] at hold
        cases hold
      · rfl

/-- A move shares one new function in a scope that sees none for the key, or it leaves everything
that is remembered as it is. -/
theorem Move.shares (hm : Move strict s s') :
    (s.nextSerial ≤ s'.nextSerial ∧
      ∀ a key, s'.scopes.entry? a key = s.scopes.entry? a key) ∨
    ∃ scope key f, s.scopes.function? scope key = none ∧ scope < s.scopes.size ∧
      f.serial = s.nextSerial ∧ s'.nextSerial = s.nextSerial + 1 ∧
      ∀ a other, s'.scopes.entry? a other =
        if scope = a ∧ key = other then some f else s.scopes.entry? a other := by
  cases hm with
  | change hc =>
    cases hc with
    | count => exact .inl ⟨Nat.le_succ _, fun _ _ => rfl⟩
    | share known fresh serial fits =>
      exact .inr ⟨_, _, _, fresh, known, serial, rfl, fun _ _ => Session.entry?_share known⟩
    | record slot known exist =>
      refine .inl ⟨Nat.le_refl _, fun _ _ => Session.entry?_edited fun sc => ?_⟩
      cases slot <;> rfl
    | request other exist => exact .inl ⟨Nat.le_refl _, fun _ _ => rfl⟩
    | attach parent child =>
      unfold Session.attached
      split <;> exact .inl ⟨Nat.le_refl _, fun _ _ => rfl⟩
  | fork index habove =>
    rename_i parent above
    exact .inl ⟨Nat.le_refl _, fun _ _ => Session.entry?_forked _ _ index⟩

/-- A change of one scope that keeps its parent keeps all chains. -/
theorem Session.chain_edited {edit : Scope → Scope} (h : ∀ sc, (edit sc).parent = sc.parent)
    (hid : id < s.scopes.size) : (s.edited scope edit).scopes.chain id = s.scopes.chain id := by
  refine ScopeTree.chain_of_first (fun a _ => ?_) hid
  rw [Session.scope?_edited]
  cases s.scopes.scope? a with
  | none => rfl
  | some sc =>
    simp only [Option.map_some]
    split
    · rw [h]
    · rfl

theorem Session.chain_forked (parent : ScopeId) (above : Scope) (index : Nat)
    (hid : id < s.scopes.size) :
    (s.forked parent above index).scopes.chain id = s.scopes.chain id := by
  rw [Session.forked_eq_joined]
  refine ScopeTree.chain_of_first (fun a ha => ?_) hid
  rw [Session.scope?_joined ha]
  cases s.scopes.scope? a with
  | none => rfl
  | some sc =>
    simp only [Option.map_some]
    split <;> rfl

/-- A move keeps the chains of all scopes. -/
theorem Move.chain (hm : Move strict s s') (hid : id < s.scopes.size) :
    s'.scopes.chain id = s.scopes.chain id := by
  cases hm with
  | fork index habove => exact Session.chain_forked _ _ index hid
  | change hc =>
    cases hc with
    | count => rfl
    | share known fresh serial fits =>
      have hcounted : id < s.counted.scopes.size := hid
      refine Session.chain_edited (fun sc => ?_) hcounted
      rfl
    | record slot known exist =>
      refine Session.chain_edited (fun sc => ?_) hid
      cases slot <;> rfl
    | request other exist => rfl
    | attach parent child =>
      unfold Session.attached
      split <;> rfl

theorem Move.scopes_size_le (hm : Move strict s s') : s.scopes.size ≤ s'.scopes.size := by
  cases hm with
  | change hc => exact Nat.le_of_eq hc.scopes_size.symm
  | fork index habove =>
    rw [Session.forked_eq_joined, Session.scopes_size_joined]
    exact Nat.le_succ _

/-! ## What stays -/

/-- On the way from one session to another nothing that is remembered has been forgotten or
replaced. What is new has a later number, and the scope it is remembered in saw nothing for its
key. -/
structure Session.Keeps (s s' : Session) : Prop where
  serials : s.nextSerial ≤ s'.nextSerial
  size : s.scopes.size ≤ s'.scopes.size
  chain : ∀ id < s.scopes.size, s'.scopes.chain id = s.scopes.chain id
  entries : ∀ a key f, s.scopes.entry? a key = some f → s'.scopes.entry? a key = some f
  fresh : ∀ a key f, s'.scopes.entry? a key = some f → s.scopes.entry? a key = some f ∨
    s.nextSerial ≤ f.serial ∧ s.scopes.function? a key = none

/-- A function that a scope remembers is the one that it sees. -/
theorem ScopeTree.function?_of_entry? {t : ScopeTree} (h : t.entry? a key = some f) :
    t.function? a key = some f := by
  obtain ⟨sc, hsc, hf⟩ := Option.bind_eq_some_iff.mp h
  rw [function?, lookup_of_some hsc, hf]
  rfl

/-- A scope that sees something exists. -/
theorem ScopeTree.lt_of_function? {t : ScopeTree} (h : t.function? a key = some f) :
    a < t.size := by
  by_cases hlt : a < t.size
  · exact hlt
  · have hnone : t.scope? a = none := List.getElem?_eq_none (Nat.not_lt.mp hlt)
    rw [function?, lookup_of_none hnone] at h
    cases h

theorem Session.Keeps.refl (s : Session) : s.Keeps s :=
  ⟨Nat.le_refl _, Nat.le_refl _, fun _ _ => rfl, fun _ _ _ h => h, fun _ _ _ h => .inl h⟩

/-- What a scope sees it goes on to see. -/
theorem Session.Keeps.function? (h : s.Keeps s') (hf : s.scopes.function? id key = some f) :
    s'.scopes.function? id key = some f := by
  have hid := ScopeTree.lt_of_function? hf
  rw [ScopeTree.function?_eq, List.findSome?_eq_some_iff] at hf ⊢
  obtain ⟨below, a, above, hchain, ha, hbelow⟩ := hf
  refine ⟨below, a, above, (h.chain id hid).trans hchain, h.entries a key f ha, fun b hb => ?_⟩
  -- A scope below the one that remembers the function sees it, so it does not make another.
  cases hb' : s'.scopes.entry? b key with
  | none => rfl
  | some g =>
    obtain hold | ⟨-, hnone⟩ := h.fresh b key g hb'
    · rw [hbelow b hb] at hold
      cases hold
    · obtain ⟨first, last, rfl⟩ := List.append_of_mem hb
      rw [List.append_assoc, List.cons_append] at hchain
      have hb'' := ScopeTree.chain_of_append hchain
      rw [ScopeTree.function?_eq, List.findSome?_eq_none_iff] at hnone
      have hmem : a ∈ s.scopes.chain b := by
        rw [hb'']
        simp
      rw [hnone a hmem] at ha
      cases ha

theorem Session.Keeps.trans (h : s.Keeps s') (h' : s'.Keeps s'') : s.Keeps s'' where
  serials := Nat.le_trans h.serials h'.serials
  size := Nat.le_trans h.size h'.size
  chain := fun id hid =>
    (h'.chain id (Nat.lt_of_lt_of_le hid h.size)).trans (h.chain id hid)
  entries := fun a key f hf => h'.entries a key f (h.entries a key f hf)
  fresh := by
    intro a key f hf
    obtain hf | ⟨hserial, hnone⟩ := h'.fresh a key f hf
    · exact h.fresh a key f hf
    · -- What was seen at first would still have been seen in between.
      refine .inr ⟨Nat.le_trans h.serials hserial, ?_⟩
      cases hs : s.scopes.function? a key with
      | none => rfl
      | some g =>
        rw [h.function? hs] at hnone
        cases hnone

theorem Move.keeps (hm : Move strict s s') : s.Keeps s' := by
  obtain ⟨hserial, hsame⟩ | ⟨scope, key, f, hnone, -, hserial, hnext, hentries⟩ := hm.shares
  · exact ⟨hserial, hm.scopes_size_le, fun id => hm.chain, fun a key f h => (hsame a key).trans h,
      fun a key f h => .inl ((hsame a key).symm.trans h)⟩
  · refine ⟨hnext ▸ Nat.le_succ _, hm.scopes_size_le, fun id => hm.chain, ?_, ?_⟩
    · intro a other g hg
      rw [hentries, if_neg]
      · exact hg
      · rintro ⟨rfl, rfl⟩
        rw [ScopeTree.function?_of_entry? hg] at hnone
        cases hnone
    · intro a other g hg
      rw [hentries] at hg
      split at hg
      · rename_i hsame
        obtain ⟨rfl, rfl⟩ := hsame
        obtain rfl := Option.some.inj hg
        exact .inr ⟨Nat.le_of_eq hserial.symm, hnone⟩
      · exact .inl hg

theorem Moves.keeps (h : Moves strict s s') : s.Keeps s' := by
  induction h with
  | refl => exact .refl s
  | tail _ hm ih => exact ih.trans hm.keeps

/-! ## When a function was made -/

/-- The scope has just made the function for the key, and no scope above it remembers one. -/
structure Session.JustMade (s : Session) (a : ScopeId) (key : MemoKey) (f : Function) : Prop where
  entry : s.scopes.entry? a key = some f
  serial : s.nextSerial = f.serial + 1
  above : ∀ above, s.scopes.chain a = a :: above → ∀ b ∈ above, s.scopes.entry? b key = none

/-- For everything that is remembered there was a moment at which it had just been made. -/
theorem exists_moment (hnew : ∀ a key, s.scopes.entry? a key = none) (h : Moves strict s s')
    (hf : s'.scopes.entry? a key = some f) :
    ∃ u, Moves strict s u ∧ Moves strict u s' ∧ u.JustMade a key f := by
  induction h with
  | refl =>
    rw [hnew] at hf
    cases hf
  | tail hbefore hm ih =>
    rename_i t t'
    have hold (hf : t.scopes.entry? a key = some f) :
        ∃ u, Moves strict s u ∧ Moves strict u t' ∧ u.JustMade a key f := by
      obtain ⟨u, hstart, hend, hmade⟩ := ih hf
      exact ⟨u, hstart, hend.tail hm, hmade⟩
    obtain ⟨-, hsame⟩ | ⟨scope, made, g, hnone, hscope, hserial, hnext, hentries⟩ := hm.shares
    · exact hold ((hsame a key).symm.trans hf)
    · have hf' := hf
      rw [hentries] at hf
      split at hf
      · -- It has just been made.
        rename_i hmade
        obtain ⟨rfl, rfl⟩ := hmade
        obtain rfl := Option.some.inj hf
        refine ⟨t', hbefore.tail hm, .refl, hf', by rw [hnext, hserial],
          fun above habove b hb => ?_⟩
        have hne : scope ≠ b := Nat.ne_of_gt (ScopeTree.lt_of_mem_above habove hb)
        rw [hm.chain hscope] at habove
        rw [ScopeTree.function?_eq, habove, List.findSome?_eq_none_iff] at hnone
        rw [hentries, if_neg fun h => hne h.1]
        exact hnone b (List.mem_cons_of_mem _ hb)
      · exact hold hf

/-! ## Numbers tell instances apart -/

/-- No two functions that are remembered have the same number. -/
def Session.Distinct (s : Session) : Prop :=
  ∀ a key f b other g, s.scopes.entry? a key = some f → s.scopes.entry? b other = some g →
    f.serial = g.serial → a = b ∧ key = other

theorem Session.Numbered.entry? (hs : s.Numbered) (hf : s.scopes.entry? a key = some f) :
    f.serial < s.nextSerial := by
  obtain ⟨sc, hsc, hget⟩ := Option.bind_eq_some_iff.mp hf
  exact hs sc (List.mem_of_getElem? hsc) f (Table.mem_values_of_get? hget)

theorem Move.distinct (hm : Move strict s s') (hn : s.Numbered) (hs : s.Distinct) :
    s'.Distinct := by
  obtain ⟨-, hsame⟩ | ⟨scope, key, new, -, -, hserial, -, hentries⟩ := hm.shares
  · intro a key f b other g hf hg
    rw [hsame] at hf hg
    exact hs a key f b other g hf hg
  · intro a key f b other g hf hg he
    rw [hentries] at hf hg
    -- The new function has a number that none of the others has.
    split at hf <;> split at hg
    · rename_i hf' hg'
      exact ⟨hf'.1.symm.trans hg'.1, hf'.2.symm.trans hg'.2⟩
    · obtain rfl := Option.some.inj hf
      exact absurd (hn.entry? hg) (by rw [← he, hserial]; exact Nat.lt_irrefl _)
    · obtain rfl := Option.some.inj hg
      exact absurd (hn.entry? hf) (by rw [he, hserial]; exact Nat.lt_irrefl _)
    · exact hs a key f b other g hf hg he

/-! ## What is remembered -/

/-- The function is what its key says, made under its own number where this library is bound. An
expression may declare a name and fields besides. -/
def MemoKey.Builds (library : Option Binding) : MemoKey → Function → Prop
  | .expression text, .accessor f =>
    Accessor.ofExpression f.serial text f.fields f.name library = .ok f
  | .field path name, .accessor f => Accessor.ofField f.serial path name = .ok f
  | .compare fields directions, .comparator c =>
    Comparator.ofFields c.serial fields directions = .ok c
  | _, _ => False

theorem Function.Fits.builds {library : Option Binding} (h : f.Fits library key) :
    key.Builds library f := by
  cases key with
  | expression text =>
    cases f with
    | comparator c => exact h
    | accessor f =>
      obtain ⟨serial, name, fields, body⟩ := f
      obtain ⟨e, he, rfl⟩ := h
      show Accessor.ofExpression serial text fields name library = _
      rw [Accessor.ofExpression, he]
  | field path name =>
    cases f with
    | comparator c => exact h
    | accessor f =>
      obtain ⟨serial, given, fields, body⟩ := f
      obtain ⟨segments, hsplit, rfl, rfl, rfl⟩ := h
      show Accessor.ofField serial path name = _
      rw [Accessor.ofField, hsplit]
  | compare fields directions =>
    cases f with
    | accessor f => exact h
    | comparator c =>
      show Comparator.ofFields c.serial fields directions = .ok c
      rw [Comparator.ofFields, show SortKey.ofFields fields directions = .ok c.keys from h]
      rfl

/-! ## Resolving -/

/-- The key under which a function is shared, for a reference to a function. -/
def Reference.memoKey? : Reference → Option MemoKey
  | .expression e => some (.expression e.text)
  | .field path name => some (.field path name)
  | .compare fields directions => some (.compare fields directions)
  | _ => none

namespace Compile

/-- A reference to a function is resolved by sharing one. -/
theorem resolveReference_eq {r : Reference} (hkey : r.memoKey? = some key) (s : Session) :
    ∃ make, resolveReference scope r s =
      (shared scope key make >>= fun f => pure (Parameter.ofFunction f)) s := by
  cases r with
  | operator id => cases hkey
  | subflow spec => cases hkey
  | expression e =>
    obtain rfl := Option.some.inj hkey
    exact ⟨_, rfl⟩
  | field path name =>
    obtain rfl := Option.some.inj hkey
    exact ⟨_, rfl⟩
  | compare fields directions =>
    obtain rfl := Option.some.inj hkey
    exact ⟨_, rfl⟩

/-- A function that is seen is the one that a reference resolves to, and nothing is changed. -/
theorem resolveReference_of_function? {r : Reference} (hkey : r.memoKey? = some key)
    (hf : s.scopes.function? scope key = some f) :
    resolveReference scope r s = .ok (.ofFunction f) s := by
  obtain ⟨make, hr⟩ := @resolveReference_eq scope key r hkey s
  have hshared : shared scope key make s = .ok f s := by
    refine Ends.eq_ok ?_
    rw [ends_shared, hf]
    exact ⟨rfl, rfl⟩
  rw [hr, Graph.bind_run, hshared]
  rfl

/-- What a reference has resolved to is seen from then on. -/
theorem function?_of_resolveReference {r : Reference} {p : Parameter}
    (hkey : r.memoKey? = some key) (h : resolveReference scope r s = .ok p s') :
    ∃ f, p = .ofFunction f ∧ s'.scopes.function? scope key = some f := by
  obtain ⟨make, hr⟩ := @resolveReference_eq scope key r hkey s
  have hends : Ends (shared scope key make >>= fun f => pure (Parameter.ofFunction f)) s
      (fun p s' => ∃ f, p = .ofFunction f ∧ s'.scopes.function? scope key = some f)
      fun _ _ => True := by
    rw [ends_bind, ends_shared]
    cases hf : s.scopes.function? scope key with
    | some f => exact ⟨f, rfl, hf⟩
    | none =>
      cases make s.nextSerial with
      | error e => exact trivial
      | ok f =>
        refine ⟨fun known => ⟨f, rfl, ?_⟩, fun _ => trivial⟩
        refine ScopeTree.function?_of_entry? ?_
        have hentry := @Session.entry?_share s.counted scope scope key f known key
        rwa [if_pos ⟨rfl, rfl⟩] at hentry
  exact hends.ok (hr.symm.trans h)

end Compile

/-! ## Every moment of every run -/

/-- Whatever refers to the key resolves to this function in the scope, at once. -/
def Session.Gives (s : Session) (scope : ScopeId) (key : MemoKey) (f : Function) : Prop :=
  ∀ r : Reference, r.memoKey? = some key →
    Compile.resolveReference scope r s = .ok (.ofFunction f) s

/-- A run of operations that do not go to the graph directly is a sequence of moves. -/
theorem Session.moves_run (s : Session) {ops : List Operation}
    (h : ∀ op ∈ ops, op.isDirect = false) : Moves False s (s.run ops) := by
  induction ops generalizing s with
  | nil => exact .refl
  | cons op rest ih =>
    have hop : Moves False s (op.after s) :=
      op.moves_after (h op List.mem_cons_self) fun hf => hf.elim
    exact hop.trans (ih (op.after s) fun o ho => h o (List.mem_cons_of_mem _ ho))

/-- A scope sees what a scope above it sees, unless one between them made a function before that
one was. -/
theorem function?_below (hnew : ∀ a key, s.scopes.entry? a key = none) (h : Moves strict s s')
    (hf : s'.scopes.function? scope key = some f) {below above : List ScopeId}
    (hchain : s'.scopes.chain id = below ++ scope :: above) :
    s'.scopes.function? id key = some f ∨
      ∃ e ∈ below, ∃ g u, Moves strict s u ∧ Moves strict u s' ∧
        u.scopes.entry? e key = some g ∧ u.nextSerial ≤ f.serial := by
  have hscope := ScopeTree.chain_of_append hchain
  rw [ScopeTree.function?_eq, hscope] at hf
  cases hbelow : below.findSome? fun a => s'.scopes.entry? a key with
  | none =>
    left
    rw [ScopeTree.function?_eq, hchain, List.findSome?_append, hbelow]
    exact hf
  | some g =>
    -- The scope below remembers a function, and made it when there was none above.
    obtain ⟨e, he, hg⟩ := List.exists_of_findSome?_eq_some hbelow
    obtain ⟨u, hstart, hend, hmade⟩ := exists_moment hnew h hg
    refine .inr ⟨e, he, g, u, hstart, hend, hmade.entry, ?_⟩
    obtain ⟨holder, hholder, hholds⟩ := List.exists_of_findSome?_eq_some hf
    obtain ⟨first, last, rfl⟩ := List.append_of_mem he
    rw [List.append_assoc, List.cons_append] at hchain
    have hlast := ScopeTree.chain_of_append hchain
    have hknown : e < u.scopes.size :=
      ScopeTree.lt_of_function? (ScopeTree.function?_of_entry? hmade.entry)
    rw [hend.keeps.chain e hknown] at hlast
    have hnone := hmade.above _ hlast holder (List.mem_append_right _ hholder)
    obtain hold | ⟨hserial, -⟩ := hend.keeps.fresh holder key f hholds
    · rw [hnone] at hold
      cases hold
    · exact hserial

/-- At every moment of every run of operations that do not go to the graph directly:

* What a scope remembers it remembers for good. It is what its key says under the binding of this
  scope, and no other function has its number.
* Once a reference has been resolved in a scope, all references to its key are resolved to the same
  instance there, and so they are in every scope below, unless a scope between the two remembered a
  function for the key at a moment before the instance was made. -/
theorem shared_instances (library : Option Library) (transforms : Registry) (depthLimit : Nat) :
    let start := Session.new library transforms depthLimit
    (∀ (s : Session) (ops : List Operation), (∀ op ∈ ops, op.isDirect = false) →
      Moves False s (s.run ops)) ∧
    ∀ s, Moves False start s →
      (∀ a key f, s.scopes.entry? a key = some f →
        (∀ t, Moves False s t → t.scopes.entry? a key = some f) ∧
        key.Builds (library.map fun l => ⟨l, a, s.scopes.itemPath a⟩) f ∧
        ∀ b other g, s.scopes.entry? b other = some g → g.serial = f.serial →
          b = a ∧ other = key) ∧
      ∀ scope r key p s', r.memoKey? = some key →
        Compile.resolveReference scope r s = .ok p s' →
        ∃ f, p = .ofFunction f ∧ ∀ t, Moves False s' t →
          t.Gives scope key f ∧
          ∀ lower below above, t.scopes.chain lower = below ++ scope :: above →
            t.Gives lower key f ∨
              ∃ e ∈ below, ∃ g u, Moves False start u ∧ Moves False u t ∧
                u.scopes.entry? e key = some g ∧ u.nextSerial ≤ f.serial := by
  intro start
  have hnew : ∀ a key, start.scopes.entry? a key = none := by
    intro a key
    cases a <;> rfl
  refine ⟨fun s ops h => s.moves_run h, fun s hs => ⟨fun a key f hf => ⟨?_, ?_, ?_⟩, ?_⟩⟩
  · exact fun t ht => ht.keeps.entries a key f hf
  · have hbound : s.Bound library :=
      hs.preserve (fun hm => hm.bound) (Session.bound_new library transforms depthLimit)
    obtain ⟨sc, hsc, hget⟩ := Option.bind_eq_some_iff.mp hf
    have hpath : s.scopes.itemPath a = sc.itemPath := by
      rw [ScopeTree.itemPath, hsc]
      rfl
    rw [hpath, ← hbound.bound a sc hsc]
    exact (hbound.fits a sc key f hsc hget).builds
  · have hdistinct : s.Numbered ∧ s.Distinct := by
      refine hs.preserve (P := fun s => s.Numbered ∧ s.Distinct)
        (fun hm h => ⟨hm.numbered h.1, hm.distinct h.1 h.2⟩)
        ⟨Session.numbered_new library transforms depthLimit, ?_⟩
      intro a key f _ _ _ hf
      rw [hnew] at hf
      cases hf
    exact fun b other g hg he => hdistinct.2 b other g a key f hg hf he
  · intro scope r key p s' hkey hr
    obtain ⟨f, rfl, hf⟩ := Compile.function?_of_resolveReference hkey hr
    refine ⟨f, rfl, fun t ht => ?_⟩
    have hseen : t.scopes.function? scope key = some f := ht.keeps.function? hf
    have hworks : Compile.Works False scope [] (Compile.resolveReference scope r)
        Parameter.handles := Compile.works_resolveReference r
    have hstep : Moves False s s' := (hworks.moves fun h => h.elim).ok hr
    refine ⟨fun r' hr' => Compile.resolveReference_of_function? hr' hseen, ?_⟩
    intro lower below above hchain
    refine (function?_below hnew ((hs.trans hstep).trans ht) hseen hchain).imp (fun h => ?_) id
    exact fun r' hr' => Compile.resolveReference_of_function? hr' h

/-- A reference to a field. -/
def priceReference : Reference := .field "price" none

/-- The field has been resolved at the root. -/
def pricedSession : Session :=
  (Session.new none .empty 64).run [.resolveReference ScopeTree.rootId priceReference]

/-- A fork of the root finds the very accessor that the root has got. -/
theorem shared_instances_fork :
    ∃ p, Compile.resolveReference ScopeTree.rootId priceReference (Session.new none .empty 64) =
        .ok p pricedSession ∧
      Compile.resolveReference 1 priceReference (pricedSession.run [.fork ScopeTree.rootId 0]) =
        .ok p (pricedSession.run [.fork ScopeTree.rootId 0]) := by
  have hresolve : Compile.resolveReference ScopeTree.rootId priceReference
      (Session.new none .empty 64) =
        .ok (.accessor ⟨0, some "price", ["price"], .path ["price"]⟩) pricedSession := by
    cbv
  have hchain : (pricedSession.run [.fork ScopeTree.rootId 0]).scopes.chain 1 =
      [1] ++ ScopeTree.rootId :: [] := by
    cbv
  have hfork : (pricedSession.run [.fork ScopeTree.rootId 0]).scopes.entry? 1
      (.field "price" none) = none := by
    cbv
  obtain ⟨hruns, hmoments⟩ := shared_instances none .empty 64
  have hlater := hruns pricedSession [.fork ScopeTree.rootId 0] (by simp [Operation.isDirect])
  obtain ⟨f, hf, hall⟩ := (hmoments _ .refl).2 _ priceReference _ _ _ rfl hresolve
  refine ⟨_, hresolve, ?_⟩
  rw [hf]
  obtain hgives | ⟨e, he, g, u, hstart, hend, hentry, -⟩ := (hall _ hlater).2 1 [1] [] hchain
  · exact hgives priceReference rfl
  · -- The fork remembers nothing itself.
    obtain rfl := List.mem_singleton.mp he
    have hkept := ((hmoments u hstart).1 1 _ g hentry).1 _ hend
    rw [hfork] at hkept
    cases hkept

/-- A fork that has resolved the field before the root has goes on with its own accessor. -/
example :
    let s := (Session.new none .empty 64).run [.fork ScopeTree.rootId 0,
      .resolveReference 1 priceReference, .resolveReference ScopeTree.rootId priceReference]
    (s.scopes.function? ScopeTree.rootId (.field "price" none)).map Function.serial = some 1 ∧
      (s.scopes.function? 1 (.field "price" none)).map Function.serial = some 0 := by
  cbv

end Dataflow
