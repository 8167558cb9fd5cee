import Dataflow.Scope.Tree
import Mathlib.Logic.Relation

/-!
# What a write changes for its readers

A `Cell` is a place in one of the tables that are read along the chain of a scope: `Cell.held` is
what a scope itself has there, `ScopeTree.read` what is seen from a scope.

The main result is `read_after_write`. A write is seen at once from its own scope and from all
scopes below it, unless one in between has the cell too; it fails only where there is no scope, and
it is seen from nowhere else and in no other cell.

Both halves walk up from the reader, one parent at a time (`lookup_eq`). The walk ends since a
parent always has the smaller place (`ScopeTree.Ordered`).
-/

namespace Dataflow

/-! ## Cells -/

/-- A place in one of the tables that are read along a chain. -/
inductive Cell where
  | node (id : EntryId)
  | signal (name : String)
  | scale (name : String)
  | role (dataset name : String)
  | function (key : MemoKey)

namespace Cell

/-- What stands in a cell. -/
abbrev Value : Cell → Type
  | .node _ => Handle
  | .signal _ => Handle
  | .scale _ => Handle
  | .role .. => Handle
  | .function _ => Function

/-- What a scope itself has in a cell. -/
def held : (c : Cell) → Scope → Option c.Value
  | .node id, sc => sc.nodes.get? id
  | .signal name, sc => sc.signals.get? name
  | .scale name, sc => sc.scales.get? name
  | .role dataset name, sc => (sc.roles dataset).get? name
  | .function key, sc => sc.functions.get? key

/-- Puts a value into a cell of a scope. -/
def put : (c : Cell) → c.Value → Scope → Scope
  | .node id, h, sc => { sc with nodes := sc.nodes.insert id h }
  | .signal name, h, sc => { sc with signals := sc.signals.insert name h }
  | .scale name, h, sc => { sc with scales := sc.scales.insert name h }
  | .role dataset name, h, sc =>
    { sc with data := sc.data.insert dataset ((sc.roles dataset).insert name h) }
  | .function key, f, sc => { sc with functions := sc.functions.insert key f }

@[simp] theorem parent_put (c : Cell) (v : c.Value) (sc : Scope) :
    (c.put v sc).parent = sc.parent := by
  cases c <;> rfl

/-- The roles of a dataset after one of a dataset has been set. -/
theorem roles_put (dataset name : String) (h : Handle) (sc : Scope) (other : String) :
    ((Cell.role dataset name).put h sc).roles other =
      if dataset = other then (sc.roles dataset).insert name h else sc.roles other := by
  simp only [put, Scope.roles, Table.get?_insert]
  split <;> rfl

theorem held_put (c : Cell) (v : c.Value) (sc : Scope) : c.held (c.put v sc) = some v := by
  cases c with
  | role dataset name =>
    show (((Cell.role dataset name).put v sc).roles dataset).get? name = some v
    rw [roles_put, if_pos rfl, Table.get?_insert, if_pos rfl]
  | _ => exact (Table.get?_insert ..).trans (if_pos rfl)

/-- All other cells, of the same table and of other tables, are as they were. -/
theorem held_put_of_ne {c c' : Cell} (h : c' ≠ c) (v : c.Value) (sc : Scope) :
    c'.held (c.put v sc) = c'.held sc := by
  cases c with
  | node id =>
    cases c' with
    | node other => exact (Table.get?_insert ..).trans (if_neg fun he => h (by rw [he]))
    | _ => rfl
  | signal name =>
    cases c' with
    | signal other => exact (Table.get?_insert ..).trans (if_neg fun he => h (by rw [he]))
    | _ => rfl
  | scale name =>
    cases c' with
    | scale other => exact (Table.get?_insert ..).trans (if_neg fun he => h (by rw [he]))
    | _ => rfl
  | function key =>
    cases c' with
    | function other => exact (Table.get?_insert ..).trans (if_neg fun he => h (by rw [he]))
    | _ => rfl
  | role dataset name =>
    cases c' with
    | role dataset' name' =>
      show (((Cell.role dataset name).put v sc).roles dataset').get? name' = _
      rw [roles_put]
      -- The roles of the same dataset are kept, but for the one of this name.
      split
      · rename_i hd
        subst hd
        have hname : name ≠ name' := fun he => h (by rw [he])
        rw [Table.get?_insert, if_neg hname]
        rfl
      · rfl
    | _ => rfl

end Cell

/-! ## Reading and writing cells -/

namespace ScopeTree

/-- What is seen of a cell from a scope. -/
def read (t : ScopeTree) (id : ScopeId) : (c : Cell) → Option c.Value
  | .node entry => t.node? id entry
  | .signal name => t.signal? id name
  | .scale name => t.scale? id name
  | .role dataset role => t.dataRole? id dataset role
  | .function key => t.function? id key

/-- Writes a cell of a scope. -/
def write (t : ScopeTree) (id : ScopeId) : (c : Cell) → c.Value → Except CompileError ScopeTree
  | .node entry, h => t.setNode id entry h
  | .signal name, h => t.setSignal id name h
  | .scale name, h => t.setScale id name h
  | .role dataset role, h => t.setDataRole id dataset role h
  | .function key, f => t.setFunction id key f

/-- What the scope at a place has in a cell itself. -/
def holds (t : ScopeTree) (id : ScopeId) (c : Cell) : Option c.Value := (t.scope? id).bind c.held

theorem read_eq (t : ScopeTree) (id : ScopeId) (c : Cell) : t.read id c = t.lookup id c.held := by
  cases c <;> rfl

theorem write_eq (t : ScopeTree) (id : ScopeId) (c : Cell) (v : c.Value) :
    t.write id c v = t.modify id (c.put v) := by
  cases c <;> rfl

/-! ## Steps -/

/-- One change of a tree. -/
inductive Step where
  | fork (parent : ScopeId) (index : Nat)
  | write (scope : ScopeId) (c : Cell) (v : c.Value)
  | setRoot (scope : ScopeId) (handle : Handle)

/-- The tree after a change; the same tree where the change fails. -/
def after (t : ScopeTree) : Step → ScopeTree
  | .fork parent index =>
    match t.fork parent index with
    | .ok (_, t') => t'
    | .error _ => t
  | .write scope c v =>
    match t.write scope c v with
    | .ok t' => t'
    | .error _ => t
  | .setRoot scope handle =>
    match t.setRoot scope handle with
    | .ok t' => t'
    | .error _ => t

/-- The tree after several changes in turn. -/
def run (t : ScopeTree) (steps : List Step) : ScopeTree := steps.foldl after t

variable {t : ScopeTree}

/-! ## Parents come first -/

/-- Every parent has a smaller place than the scope. -/
def Ordered (t : ScopeTree) : Prop := ∀ id p, t.parent? id = some p → p < id

theorem ordered_new (library : Option Library) : (new library).Ordered := by
  intro id p h
  cases id with
  | zero => exact nomatch h
  | succ n => exact nomatch h

theorem scope?_edit (scopes : List Scope) (id other : ScopeId) (f : Scope → Scope) :
    (⟨scopes.modify id f⟩ : ScopeTree).scope? other =
      if other = id then ((⟨scopes⟩ : ScopeTree).scope? id).map f
      else (⟨scopes⟩ : ScopeTree).scope? other := by
  simp only [scope?, List.getElem?_modify]
  by_cases h : other = id
  · subst h
    simp
  · have hne : ¬ id = other := fun he => h he.symm
    simp [h, hne]

/-- A change of a scope that keeps its parent keeps all parents. -/
theorem parent?_edit {f : Scope → Scope} (hf : ∀ sc, (f sc).parent = sc.parent)
    (scopes : List Scope) (id other : ScopeId) :
    (⟨scopes.modify id f⟩ : ScopeTree).parent? other =
      (⟨scopes⟩ : ScopeTree).parent? other := by
  rw [parent?, parent?, scope?_edit]
  split
  · rename_i h
    subst h
    cases (⟨scopes⟩ : ScopeTree).scope? other with
    | none => rfl
    | some sc => exact hf sc
  · rfl

theorem Ordered.modify {f : Scope → Scope} (hf : ∀ sc, (f sc).parent = sc.parent)
    (ht : t.Ordered) {id : ScopeId} {t' : ScopeTree} (h : t.modify id f = .ok t') :
    t'.Ordered := by
  unfold ScopeTree.modify at h
  split at h
  · obtain rfl := Except.ok.inj h
    intro other p hp
    rw [parent?_edit hf] at hp
    exact ht other p hp
  · cases h

theorem Ordered.fork (ht : t.Ordered) {parent id : ScopeId} {index : Nat} {t' : ScopeTree}
    (h : t.fork parent index = .ok (id, t')) : t'.Ordered := by
  unfold ScopeTree.fork at h
  cases hp : t.scope? parent with
  | none => simp [hp] at h
  | some above =>
    simp only [hp, Except.ok.injEq, Prod.mk.injEq] at h
    obtain ⟨-, rfl⟩ := h
    have hlt : parent < t.scopes.length := (List.getElem?_eq_some_iff.mp hp).choose
    intro other p hother
    -- A scope is one of those before, or it is the new one.
    by_cases hold : other < t.scopes.length
    · refine ht other p ?_
      have hkeep := parent?_edit (f := fun s => { s with forks := s.forks ++ [t.size] })
        (fun _ => rfl) t.scopes parent other
      rw [← hkeep, ← hother, parent?, parent?, scope?, scope?,
        List.getElem?_append_left (by simpa using hold)]
    · have hge : t.scopes.length ≤ other := Nat.not_lt.mp hold
      rw [parent?, scope?, List.getElem?_append_right (by simpa using hge),
        List.length_modify, List.getElem?_singleton] at hother
      split at hother
      · obtain rfl := Option.some.inj hother
        exact Nat.lt_of_lt_of_le hlt hge
      · cases hother

theorem Ordered.after (ht : t.Ordered) (step : Step) : (t.after step).Ordered := by
  cases step with
  | fork parent index =>
    simp only [ScopeTree.after]
    split
    · rename_i hf
      exact ht.fork hf
    · exact ht
  | write scope c v =>
    simp only [ScopeTree.after]
    split
    · rename_i hw
      exact ht.modify (c.parent_put v) ((t.write_eq scope c v).symm.trans hw)
    · exact ht
  | setRoot scope handle =>
    have hroot : ∀ sc : Scope, ({ sc with root := some handle } : Scope).parent = sc.parent :=
      fun _ => rfl
    simp only [ScopeTree.after]
    split
    · rename_i hw
      exact ht.modify hroot hw
    · exact ht

/-- In every tree that is grown from a root, parents come first. -/
theorem Ordered.run (ht : t.Ordered) (steps : List Step) : (t.run steps).Ordered := by
  induction steps generalizing t with
  | nil => exact ht
  | cons step rest ih => exact ih (ht.after step)

/-! ## Walking up -/

/-- A scope is another one, or it is somewhere below it. -/
abbrev Under (t : ScopeTree) : ScopeId → ScopeId → Prop :=
  Relation.ReflTransGen fun id p => t.parent? id = some p

theorem Under.le (ht : t.Ordered) {id a : ScopeId} (h : t.Under id a) : a ≤ id := by
  induction h with
  | refl => exact Nat.le_refl _
  | tail _ hp ih => exact Nat.le_trans (Nat.le_of_lt (ht _ _ hp)) ih

/-- A scope below a proper child of another is not this other. -/
theorem ne_of_under_parent (ht : t.Ordered) {id p a : ScopeId} (hp : t.parent? id = some p)
    (h : t.Under p a) : id ≠ a :=
  fun he => Nat.lt_irrefl a (Nat.lt_of_le_of_lt (Under.le ht h) (he ▸ ht id p hp))

/-- A search along a chain looks at the scope and goes on with its parent. -/
theorem lookup_eq (ht : t.Ordered) {α : Type} (id : ScopeId) (pick : Scope → Option α) :
    t.lookup id pick = ((t.scope? id).bind pick).or
      ((t.parent? id).bind fun p => t.lookup p pick) := by
  cases hsc : t.scope? id with
  | none => simp [lookup_of_none hsc, parent?, hsc]
  | some sc =>
    have hparent : t.parent? id = sc.parent := by rw [parent?, hsc]; rfl
    rw [lookup_of_some hsc, hparent]
    cases hp : sc.parent with
    | none => rfl
    | some p =>
      have hlt : p < id := ht id p (hparent.trans hp)
      simp only [Option.bind_some, if_pos hlt]

/-- What is seen depends on the scope and those above it only. -/
theorem lookup_congr {t' : ScopeTree} {α : Type} {pick : Scope → Option α} (ht : t.Ordered)
    (ht' : t'.Ordered) (hparent : ∀ id, t'.parent? id = t.parent? id) (id : ScopeId)
    (hpick : ∀ b, t.Under id b → (t'.scope? b).bind pick = (t.scope? b).bind pick) :
    t'.lookup id pick = t.lookup id pick := by
  induction id using Nat.strongRecOn with
  | ind id ih =>
    rw [lookup_eq ht, lookup_eq ht', hparent, hpick id .refl]
    cases hp : t.parent? id with
    | none => rfl
    | some p =>
      have hup : t'.lookup p pick = t.lookup p pick :=
        ih p (ht id p hp) fun b hb => hpick b (.head hp hb)
      simp only [Option.bind_some, hup]

/-- A scope sees what another has in a cell: it is below the other, and nothing nearer than the
other has the cell itself. -/
def Sees (t : ScopeTree) (id a : ScopeId) (c : Cell) : Prop :=
  t.Under id a ∧ ∀ b, t.Under id b → t.Under b a → b ≠ a → t.holds b c = none

section

variable {t' : ScopeTree} {a : ScopeId} {c : Cell} {v : c.Value}

/-- After a write the scopes are those before, but for the one that is written. -/
theorem holds_write (h : t.write a c v = .ok t') (ht : t.Ordered) :
    t'.Ordered ∧ (∀ id, t'.parent? id = t.parent? id) ∧ t'.holds a c = some v ∧
      ∀ id c', c' ≠ c ∨ id ≠ a → t'.holds id c' = t.holds id c' := by
  rw [write_eq] at h
  refine ⟨ht.modify (c.parent_put v) h, ?_⟩
  unfold ScopeTree.modify at h
  split at h
  · rename_i hlt
    obtain rfl := Except.ok.inj h
    obtain ⟨sc, hsc⟩ : ∃ sc, t.scope? a = some sc := ⟨_, List.getElem?_eq_getElem hlt⟩
    refine ⟨fun id => parent?_edit (c.parent_put v) t.scopes a id, ?_, fun id c' hne => ?_⟩
    · rw [holds, scope?_edit, if_pos rfl, hsc]
      exact c.held_put v sc
    · rw [holds, holds, scope?_edit]
      split
      · rename_i hid
        subst hid
        have hc : c' ≠ c := hne.elim (fun h => h) fun h => absurd rfl h
        rw [hsc]
        exact Cell.held_put_of_ne hc v sc
      · rfl
  · cases h

/-- From below, the value is met before anything that hides it. -/
theorem read_write_of_sees (ht : t.Ordered) (h : t.write a c v = .ok t') {id : ScopeId}
    (hs : t.Sees id a c) : t'.read id c = some v := by
  obtain ⟨ht', hparent, hnew, hold⟩ := holds_write h ht
  obtain ⟨hunder, hclear⟩ := hs
  -- The induction is on the way up from the reader; on it, nothing but the written scope answers.
  induction hunder using Relation.ReflTransGen.head_induction_on with
  | refl =>
    rw [read_eq, lookup_eq ht', show (t'.scope? a).bind c.held = some v from hnew]
    rfl
  | head hp hup ih =>
    rename_i id p
    have hne : id ≠ a := ne_of_under_parent ht hp hup
    have hnone : (t'.scope? id).bind c.held = none :=
      (hold id c (.inr hne)).trans (hclear id .refl (.head hp hup) hne)
    have hrest : t'.read p c = some v := ih fun b hb => hclear b (.head hp hb)
    rw [read_eq] at hrest
    rw [read_eq, lookup_eq ht', hnone, hparent, hp]
    exact hrest

/-- A nearer scope that has the cell itself hides the write. -/
theorem read_write_of_hidden (ht : t.Ordered) (h : t.write a c v = .ok t') {id b : ScopeId}
    (hid : t.Under id b) (hb : t.Under b a) (hne : b ≠ a) (hheld : t.holds b c ≠ none) :
    t'.read id c = t.read id c := by
  obtain ⟨ht', hparent, -, hold⟩ := holds_write h ht
  simp only [read_eq]
  induction hid using Relation.ReflTransGen.head_induction_on with
  | refl =>
    have hsame : (t'.scope? b).bind c.held = (t.scope? b).bind c.held := hold b c (.inr hne)
    obtain ⟨w, hw⟩ := Option.ne_none_iff_exists'.mp hheld
    rw [lookup_eq ht, lookup_eq ht', hsame, show (t.scope? b).bind c.held = some w from hw]
    rfl
  | head hp hup ih =>
    rename_i id p
    -- The reader is farther down than the scope that hides, so it is not the one that is written.
    have hida : id ≠ a := ne_of_under_parent ht hp (hup.trans hb)
    have hsame : (t'.scope? id).bind c.held = (t.scope? id).bind c.held := hold id c (.inr hida)
    rw [lookup_eq ht, lookup_eq ht', hsame, hparent, hp]
    simp only [Option.bind_some, ih]

/-- Where the write is not seen, everything is as before. -/
theorem read_write_of_not_sees (ht : t.Ordered) (h : t.write a c v = .ok t') {id : ScopeId}
    {c' : Cell} (hs : ¬ (c' = c ∧ t.Sees id a c)) : t'.read id c' = t.read id c' := by
  obtain ⟨ht', hparent, -, hold⟩ := holds_write h ht
  -- Another cell, a scope that is not above the reader, or one that is hidden from it.
  by_cases hc : c' = c
  · subst hc
    by_cases hunder : t.Under id a
    · have hhidden : ¬ ∀ b, t.Under id b → t.Under b a → b ≠ a → t.holds b c' = none :=
        fun hclear => hs ⟨rfl, hunder, hclear⟩
      simp only [Classical.not_forall] at hhidden
      obtain ⟨b, hid, hb, hne, hheld⟩ := hhidden
      exact read_write_of_hidden ht h hid hb hne hheld
    · rw [read_eq, read_eq]
      refine lookup_congr ht ht' hparent id fun b hb => hold b c' (.inr fun he => ?_)
      exact hunder (he ▸ hb)
  · rw [read_eq, read_eq]
    exact lookup_congr ht ht' hparent id fun b _ => hold b c' (.inl hc)

end

/-! ## Every tree -/

/-- In every tree that is grown from a root by forks and writes, and for every cell: a write to a
scope of the tree succeeds, the value is read from the scope and from all below it that no nearer
scope hides it from, and all other reads, of this cell and of every other, are as before. A write
to a place without a scope fails, and the tree stays as it is. -/
theorem read_after_write (library : Option Library) (steps : List Step) (a id : ScopeId)
    (c : Cell) (v : c.Value) :
    let t := (new library).run steps
    (a < t.size → ∃ t', t.write a c v = .ok t' ∧ (t.Sees id a c → t'.read id c = some v) ∧
      ∀ c', ¬ (c' = c ∧ t.Sees id a c) → t'.read id c' = t.read id c') ∧
    (t.size ≤ a → t.write a c v = .error (.scopeNotFound a) ∧ t.after (.write a c v) = t) := by
  intro t
  have ht : t.Ordered := (ordered_new library).run steps
  constructor
  · intro ha
    obtain ⟨t', hw⟩ : ∃ t', t.write a c v = .ok t' := by
      rw [write_eq, ScopeTree.modify, if_pos ha]
      exact ⟨_, rfl⟩
    refine ⟨t', hw, read_write_of_sees ht hw, fun c' hs => ?_⟩
    exact read_write_of_not_sees ht hw hs
  · intro ha
    have hw : t.write a c v = .error (.scopeNotFound a) := by
      rw [write_eq, ScopeTree.modify, if_neg (Nat.not_lt.mpr ha)]
    refine ⟨hw, ?_⟩
    rw [ScopeTree.after, hw]

/-- A root with a signal, a fork of it with a fork of its own, and a second fork of the root. -/
def lineage : List Step :=
  [.write rootId (.signal "size") 1, .fork rootId 0, .fork 1 5, .fork rootId 1]

/-- A signal that is written in the first fork is seen from the scope below it. The second fork
goes on to see the signal of the root. -/
theorem read_after_write_lineage :
    let t := (new none).run lineage
    ∃ t', t.write 1 (.signal "size") 7 = .ok t' ∧ t'.read 2 (.signal "size") = some 7 ∧
      t'.read 3 (.signal "size") = some 1 ∧ t'.read 2 (.scale "size") = none ∧
      t.write 4 (.signal "size") 7 = .error (.scopeNotFound 4) := by
  intro t
  have ht : t.Ordered := (ordered_new none).run lineage
  have hsees : t.Sees 2 1 (.signal "size") := by
    refine ⟨.single (by decide), fun b h2 h1 hne => ?_⟩
    -- Only the reader itself is nearer than the fork.
    have hle : b ≤ 2 := Under.le ht h2
    have hge : 1 ≤ b := Under.le ht h1
    obtain rfl : b = 2 := Nat.le_antisymm hle (Nat.lt_of_le_of_ne hge (Ne.symm hne))
    decide
  have hapart : ¬ t.Sees 3 1 (.signal "size") := by
    rintro ⟨hunder, -⟩
    obtain h | ⟨p, hp, hup⟩ := Relation.ReflTransGen.cases_head hunder
    · cases h
    · -- The scope above the second fork is the root.
      obtain rfl : 0 = p := Option.some.inj hp
      exact absurd (Under.le ht hup) (by decide)
  obtain ⟨t', hw, hseen, -⟩ := (read_after_write none lineage 1 2 (.signal "size") 7).1 (by decide)
  obtain ⟨t₃, hw₃, -, hkeep⟩ := (read_after_write none lineage 1 3 (.signal "size") 7).1 (by decide)
  obtain ⟨t₂, hw₂, -, hother⟩ :=
    (read_after_write none lineage 1 2 (.signal "size") 7).1 (by decide)
  obtain rfl := Except.ok.inj (hw₃.symm.trans hw)
  obtain rfl := Except.ok.inj (hw₂.symm.trans hw)
  refine ⟨t₂, hw, hseen hsees, ?_, ?_, ?_⟩
  · rw [hkeep (.signal "size") fun h => hapart h.2]
    cbv
  · rw [hother (.scale "size") fun h => by cases h.1]
    cbv
  · exact ((read_after_write none lineage 4 0 (.signal "size") 7).2 (by decide)).1

end ScopeTree

end Dataflow
