import Dataflow.Proofs.GraphGrowth
import Dataflow.Proofs.OperationRuns

/-!
# A session and a copy that is made in it

While a copy of a nested specification is made, everything that is added to the session belongs to
the copy. A `Copy` is what has been added so far, and `Session.joined` is the session with it: the
copy's scope comes last among the scopes, the copy's nodes after all nodes before, and of the scopes
that were there before only the one above is changed, by one more fork.

A fork joins an empty copy (`forked_eq_joined`). What compiling in the new scope does to the session
is done to the copy (`edited_joined`, `sent_joined`), and a search from the new
scope looks at the copy first and goes on where it was forked (`lookup_joined`).
-/

namespace Dataflow

/-! ## Searching a tree -/

namespace ScopeTree

variable {t t' : ScopeTree} {α : Type} {pick : Scope → Option α}

/-- A search from one of the first scopes does not depend on the others. -/
theorem lookup_of_first {n : Nat}
    (hparent : ∀ id < n, (t'.scope? id).map Scope.parent = (t.scope? id).map Scope.parent)
    (hpick : ∀ id < n, (t'.scope? id).bind pick = (t.scope? id).bind pick) {id : ScopeId}
    (hid : id < n) : t'.lookup id pick = t.lookup id pick := by
  induction id using Nat.strongRecOn with
  | ind id ih =>
    have hp := hparent id hid
    have hhere := hpick id hid
    cases hsc : t.scope? id with
    | none =>
      rw [hsc, Option.map_none, Option.map_eq_none_iff] at hp
      rw [lookup_of_none hsc, lookup_of_none hp]
    | some sc =>
      obtain ⟨sc', hsc', hsame⟩ := Option.map_eq_some_iff.mp (hp.trans (by rw [hsc]; rfl))
      rw [hsc, hsc', Option.bind_some, Option.bind_some] at hhere
      rw [lookup_of_some hsc, lookup_of_some hsc', hhere, hsame]
      cases sc.parent with
      | none => rfl
      | some p =>
        by_cases hlt : p < id
        · simp only [Option.bind_some, if_pos hlt, ih p hlt (Nat.lt_trans hlt hid)]
        · simp only [Option.bind_some, if_neg hlt]

end ScopeTree

/-! ## Copies -/

/-- What the making of a copy has added: the scope and what it records, what has been added to the
graph, how many serial numbers have been taken, and the requests. -/
structure Copy where
  scope : Scope
  growth : Growth
  serials : Nat
  journal : List Request

namespace Copy

/-- In the beginning there is the new scope alone. -/
def start (parent : ScopeId) (above : Scope) (id : ScopeId) (index : Nat) : Copy where
  scope := .fresh (some parent) (above.itemPath ++ [index])
    (above.library.map fun b => ⟨b.library, id, above.itemPath ++ [index]⟩)
  growth := .empty
  serials := 0
  journal := []

/-- A serial number is taken. -/
def counted (c : Copy) : Copy := { c with serials := c.serials + 1 }

/-- The scope is changed. -/
def edited (c : Copy) (f : Scope → Scope) : Copy := { c with scope := f c.scope }

/-- A request is carried out, if there were `size` nodes before the copy. -/
def carried (c : Copy) (size : Nat) (q : Request) : Copy :=
  { c with growth := c.growth.carried size q, journal := c.journal ++ [q] }

/-- A request is refused. -/
def refused (c : Copy) (q : Request) : Copy := { c with journal := c.journal ++ [q] }

/-- The same copy with all numbers renamed. -/
def rename (r : Renaming) (c : Copy) : Copy where
  scope := c.scope.rename r
  growth := c.growth.rename r
  serials := c.serials
  journal := c.journal.map (Request.rename r)

/-- The copy keeps to itself: its scope records nodes of its own only, and all that it adds to the
graph leads to them. -/
structure Sound (c : Copy) (size : Nat) (parent : ScopeId) : Prop where
  parent : c.scope.parent = some parent
  owned : ∀ h ∈ c.scope.handles, c.growth.Owns size h
  inward : c.growth.Inward size

/-- The making of the copy has gone on. -/
structure Later (c c' : Copy) : Prop where
  itemPath : c'.scope.itemPath = c.scope.itemPath
  nodes : c.growth.nodes.length ≤ c'.growth.nodes.length
  entries : ∀ id, (c.scope.nodes.get? id).isSome → (c'.scope.nodes.get? id).isSome

variable {c c' c'' : Copy} {size : Nat} {parent : ScopeId} {q : Request}

theorem sound_start (above : Scope) (id : ScopeId) (index : Nat) :
    (start parent above id index).Sound size parent where
  parent := rfl
  owned := fun _ h => nomatch h
  inward := Growth.inward_empty size

theorem Later.refl (c : Copy) : c.Later c := ⟨rfl, Nat.le_refl _, fun _ h => h⟩

theorem Later.trans (h : c.Later c') (h' : c'.Later c'') : c.Later c'' where
  itemPath := h'.itemPath.trans h.itemPath
  nodes := Nat.le_trans h.nodes h'.nodes
  entries := fun id hid => h'.entries id (h.entries id hid)

theorem Later.owns (h : c.Later c') {handle : Handle} (ho : c.growth.Owns size handle) :
    c'.growth.Owns size handle := ho.mono h.nodes

theorem later_counted (c : Copy) : c.Later c.counted := ⟨rfl, Nat.le_refl _, fun _ h => h⟩

theorem later_refused (c : Copy) (q : Request) : c.Later (c.refused q) :=
  ⟨rfl, Nat.le_refl _, fun _ h => h⟩

theorem later_carried (c : Copy) (size : Nat) (q : Request) : c.Later (c.carried size q) :=
  ⟨rfl, c.growth.length_le_carried size q, fun _ h => h⟩

theorem later_share (c : Copy) (key : MemoKey) (f : Function) :
    c.Later (c.edited (Scope.share key f)) := ⟨rfl, Nat.le_refl _, fun _ h => h⟩

theorem later_put (c : Copy) (slot : Slot) (handle : Handle) :
    c.Later (c.edited (slot.put handle)) where
  itemPath := by cases slot <;> rfl
  nodes := Nat.le_refl _
  entries := by
    intro id h
    cases slot with
    | node entry =>
      show ((c.scope.nodes.insert entry handle).get? id).isSome
      rw [Table.get?_insert]
      split
      · rfl
      · exact h
    | _ => exact h

theorem Sound.counted (h : c.Sound size parent) : c.counted.Sound size parent :=
  ⟨h.parent, h.owned, h.inward⟩

theorem Sound.refused (h : c.Sound size parent) (q : Request) : (c.refused q).Sound size parent :=
  ⟨h.parent, h.owned, h.inward⟩

theorem Sound.carried (h : c.Sound size parent) (hq : q.Concerns (c.growth.Owns size)) :
    (c.carried size q).Sound size parent where
  parent := h.parent
  owned := fun handle hh => (later_carried c size q).owns (h.owned handle hh)
  inward := h.inward.carried hq

theorem Sound.share (h : c.Sound size parent) (key : MemoKey) (f : Function) :
    (c.edited (Scope.share key f)).Sound size parent := ⟨h.parent, h.owned, h.inward⟩

/-- A node of the copy may be recorded in its scope. -/
theorem Sound.put (h : c.Sound size parent) (slot : Slot) {handle : Handle}
    (ho : c.growth.Owns size handle) : (c.edited (slot.put handle)).Sound size parent where
  parent := by
    rw [← h.parent]
    cases slot <;> rfl
  owned := by
    intro other hother
    obtain rfl | hmem := Slot.mem_handles_put hother
    · exact ho
    · exact h.owned other hmem
  inward := h.inward

variable {r : Renaming} {size' : Nat}

/-- A renamed request does for the renamed copy what the request does for the copy. -/
theorem rename_carried (hle : size ≤ size') (hr : r.handle = shift size size')
    (hq : q.Concerns (c.growth.Owns size)) :
    (c.carried size q).rename r = (c.rename r).carried size' (q.rename r) := by
  simp only [rename, carried, Growth.rename_carried hle hr hq, List.map_append,
    List.map_cons, List.map_nil]

theorem rename_refused : (c.refused q).rename r = (c.rename r).refused (q.rename r) := by
  simp only [rename, refused, List.map_append, List.map_cons, List.map_nil]

end Copy

/-! ## The session with a copy -/

namespace Session

/-- The session with a copy below one of its scopes. -/
def joined (s : Session) (parent : ScopeId) (c : Copy) : Session :=
  { s with
    scopes := ⟨(s.scopes.scopes.modify parent fun p =>
        { p with forks := p.forks ++ [s.scopes.size] })
      ++ [c.scope]⟩
    graph := s.graph.grow c.growth
    nextSerial := s.nextSerial + c.serials
    journal := s.journal ++ c.journal }

variable {s : Session} {parent id : ScopeId} {c : Copy} {q : Request}

/-- A fork joins a copy for which nothing has been done yet. -/
theorem forked_eq_joined (above : Scope) (index : Nat) :
    s.forked parent above index = s.joined parent (.start parent above s.scopes.size index) := by
  simp only [forked, joined, Copy.start, Graph.grow_empty, Nat.add_zero, List.append_nil]

/-- A change of the last scope is a change of the copy. -/
theorem edited_joined (f : Scope → Scope) :
    (s.joined parent c).edited s.scopes.size f = s.joined parent (c.edited f) := by
  have hlength : (s.scopes.scopes.modify parent fun p =>
      { p with forks := p.forks ++ [s.scopes.size] }).length = s.scopes.size :=
    List.length_modify ..
  simp only [edited, joined, Copy.edited]
  rw [List.modify_append_of_le (Nat.le_of_eq hlength), hlength, Nat.sub_self]
  rfl

/-- A request that the copy makes is carried out for the copy, or it is refused and only the journal
tells of it. -/
theorem sent_joined (hg : s.graph.TargetsExist) (hq : q.Concerns (c.growth.Owns s.graph.size)) :
    (s.joined parent c).sent q =
      match (s.joined parent c).graph.refusal? q with
      | none => s.joined parent (c.carried s.graph.size q)
      | some _ => s.joined parent (c.refused q) := by
  unfold sent Graph.after
  cases he : (s.joined parent c).graph.refusal? q with
  | none =>
    have hgrow : (s.joined parent c).graph.carried q =
        s.graph.grow (c.growth.carried s.graph.size q) := Graph.grow_carried hg hq
    rw [hgrow]
    simp only [joined, Copy.carried, List.append_assoc]
  | some e =>
    have hsame : (s.joined parent c).graph.refused q = s.graph.grow c.growth :=
      Graph.refused_of_concerns hq he
    rw [hsame]
    simp only [joined, Copy.refused, List.append_assoc]

/-! ## What is read -/

@[simp] theorem scopes_size_joined : (s.joined parent c).scopes.size = s.scopes.size + 1 := by
  simp [joined, ScopeTree.size]

theorem scope?_joined_last : (s.joined parent c).scopes.scope? s.scopes.size = some c.scope := by
  simp [joined, ScopeTree.scope?, ScopeTree.size]

/-- The scopes before are as they were, but for the fork. -/
theorem scope?_joined (hid : id < s.scopes.size) :
    (s.joined parent c).scopes.scope? id = (s.scopes.scope? id).map fun sc =>
      if parent = id then { sc with forks := sc.forks ++ [s.scopes.size] } else sc := by
  have hlt : id < (s.scopes.scopes.modify parent fun p =>
      { p with forks := p.forks ++ [s.scopes.size] }).length := by
    rw [List.length_modify]
    exact hid
  rw [joined, ScopeTree.scope?, List.getElem?_append_left hlt, List.getElem?_modify]
  cases hsc : s.scopes.scopes[id]? <;> simp [ScopeTree.scope?, hsc]

section

variable {α : Type} {pick : Scope → Option α}

/-- From the scopes before the same is seen, unless it is the forks that are looked at. -/
theorem lookup_joined_before (hpick : ∀ sc forks, pick { sc with forks := forks } = pick sc)
    (hid : id < s.scopes.size) :
    (s.joined parent c).scopes.lookup id pick = s.scopes.lookup id pick := by
  refine ScopeTree.lookup_of_first (n := s.scopes.size) ?_ ?_ hid
  · intro a ha
    rw [scope?_joined ha]
    cases s.scopes.scope? a with
    | none => rfl
    | some sc =>
      rw [Option.map_some, Option.map_some, Option.map_some]
      split <;> rfl
  · intro a ha
    rw [scope?_joined ha]
    cases s.scopes.scope? a with
    | none => rfl
    | some sc =>
      rw [Option.map_some, Option.bind_some, Option.bind_some]
      split
      · exact hpick sc _
      · rfl

/-- The new scope sees what the copy has recorded, and otherwise what the scope above it sees. -/
theorem lookup_joined (hpick : ∀ sc forks, pick { sc with forks := forks } = pick sc)
    (hc : c.scope.parent = some parent) (hparent : parent < s.scopes.size) :
    (s.joined parent c).scopes.lookup s.scopes.size pick =
      (pick c.scope).or (s.scopes.lookup parent pick) := by
  rw [ScopeTree.lookup_of_some scope?_joined_last, hc, Option.bind_some, if_pos hparent,
    lookup_joined_before hpick hparent]

end

end Session

end Dataflow
