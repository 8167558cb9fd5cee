import Dataflow.Proofs.MergedViews

/-!
# How the scopes of a tree are arranged

A fork sets the parent of a scope, its item path and its binding of the library, and lists the scope
among the forks of its parent. `ScopeTree.WellFormed` says how these fit together.

A change of a tree leaves the arrangement as it is (`Similar`), or it is a fork of a scope of the
tree and adds one scope (`Forked`); `after_cases` has no third case. Each of them preserves
`WellFormed` and what older scopes have, so every tree that is grown from a root is well-formed.
The walk of `Climb` relies on nothing but the parents, and ends since they come first.
-/

namespace Dataflow

namespace Cell

variable (c : Cell) (v : c.Value) (sc : Scope)

@[simp] theorem itemPath_put : (c.put v sc).itemPath = sc.itemPath := by
  cases c <;> rfl

@[simp] theorem forks_put : (c.put v sc).forks = sc.forks := by
  cases c <;> rfl

@[simp] theorem library_put : (c.put v sc).library = sc.library := by
  cases c <;> rfl

end Cell

namespace ScopeTree

variable {library : Option Library} {t t' t'' : ScopeTree} {id parent : ScopeId} {index : Nat}

/-! ## What a change does -/

/-- The scopes of two trees are arranged in the same way. -/
structure Similar (t t' : ScopeTree) : Prop where
  size : t'.size = t.size
  parent? : ∀ id, t'.parent? id = t.parent? id
  itemPath : ∀ id, t'.itemPath id = t.itemPath id
  forks : ∀ id, t'.forks id = t.forks id
  library? : ∀ id, t'.library? id = t.library? id

/-- A tree has one scope more, the last of the forks of `parent`. -/
structure Forked (parent : ScopeId) (index : Nat) (t t' : ScopeTree) : Prop where
  size : t'.size = t.size + 1
  parent? : ∀ id, t'.parent? id = if id = t.size then some parent else t.parent? id
  itemPath : ∀ id, t'.itemPath id =
    if id = t.size then t.itemPath parent ++ [index] else t.itemPath id
  forks : ∀ id, t'.forks id = if id = parent then t.forks id ++ [t.size] else t.forks id
  library? : ∀ id, t'.library? id =
    if id = t.size then
      (t.library? parent).map fun b => ⟨b.library, t.size, t.itemPath parent ++ [index]⟩
    else t.library? id

theorem Similar.refl (t : ScopeTree) : t.Similar t :=
  ⟨rfl, fun _ => rfl, fun _ => rfl, fun _ => rfl, fun _ => rfl⟩

/-- A change of one scope that keeps what a fork has set. -/
theorem Similar.modify {f : Scope → Scope} (hparent : ∀ sc, (f sc).parent = sc.parent)
    (hpath : ∀ sc, (f sc).itemPath = sc.itemPath) (hforks : ∀ sc, (f sc).forks = sc.forks)
    (hlibrary : ∀ sc, (f sc).library = sc.library) (h : t.modify id f = .ok t') :
    t.Similar t' := by
  unfold ScopeTree.modify at h
  split at h
  · obtain rfl := Except.ok.inj h
    have hscope : ∀ other, (⟨t.scopes.modify id f⟩ : ScopeTree).scope? other = t.scope? other ∨
        (⟨t.scopes.modify id f⟩ : ScopeTree).scope? other = (t.scope? other).map f := by
      intro other
      rw [scope?_edit]
      split
      · rename_i heq
        subst heq
        exact .inr rfl
      · exact .inl rfl
    refine ⟨List.length_modify .., parent?_edit hparent t.scopes id, fun other => ?_,
      fun other => ?_, fun other => ?_⟩
    · obtain h | h := hscope other <;> rw [ScopeTree.itemPath, ScopeTree.itemPath, h]
      cases t.scope? other <;> simp [hpath]
    · obtain h | h := hscope other <;> rw [ScopeTree.forks, ScopeTree.forks, h]
      cases t.scope? other <;> simp [hforks]
    · obtain h | h := hscope other <;> rw [ScopeTree.library?, ScopeTree.library?, h]
      cases t.scope? other <;> simp [hlibrary]
  · cases h

theorem scope?_of_lt (h : id < t.size) : ∃ sc, t.scope? id = some sc :=
  ⟨_, List.getElem?_eq_getElem h⟩

theorem scope?_of_le (h : t.size ≤ id) : t.scope? id = none :=
  List.getElem?_eq_none h

theorem lt_of_parent? {p : ScopeId} (h : t.parent? id = some p) : id < t.size := by
  obtain ⟨sc, hsc, -⟩ := Option.bind_eq_some_iff.mp h
  exact (List.getElem?_eq_some_iff.mp hsc).choose

/-- The scopes after a fork are those before, and the new one. -/
theorem scope?_append (f : Scope → Scope) (child : Scope) (other : ScopeId) :
    (⟨t.scopes.modify id f ++ [child]⟩ : ScopeTree).scope? other =
      if other = t.size then some child
      else if other = id then (t.scope? id).map f else t.scope? other := by
  have hlength : (t.scopes.modify id f).length = t.size := List.length_modify ..
  obtain hlt | rfl | hgt := Nat.lt_trichotomy other t.size
  · have hold := scope?_edit t.scopes id other f
    rw [if_neg (Nat.ne_of_lt hlt), ← hold, scope?, scope?,
      List.getElem?_append_left (hlength.symm ▸ hlt)]
  · rw [if_pos rfl, scope?, ← hlength, List.getElem?_concat_length]
  · have hnone : (⟨t.scopes.modify id f ++ [child]⟩ : ScopeTree).scope? other = none := by
      refine scope?_of_le ?_
      rw [size, List.length_append, hlength, List.length_singleton]
      exact hgt
    have hold : t.scope? other = none := scope?_of_le (Nat.le_of_lt hgt)
    rw [hnone, if_neg (Nat.ne_of_gt hgt), hold]
    split
    · rename_i heq
      rw [← heq, hold]
      rfl
    · rfl

/-- A fork of a scope of the tree succeeds. -/
theorem fork_of_lt (hlt : parent < t.size) (index : Nat) :
    ∃ t', t.fork parent index = .ok (t.size, t') ∧ Forked parent index t t' := by
  obtain ⟨above, habove⟩ := scope?_of_lt hlt
  have hsize : parent ≠ t.size := Nat.ne_of_lt hlt
  rw [fork, habove]
  refine ⟨_, rfl, ?_⟩
  -- Each field is read off the new scope, off the parent, or off another scope.
  constructor
  case size => rw [size, List.length_append, List.length_modify]; rfl
  case parent? =>
    intro id
    rw [ScopeTree.parent?, scope?_append]
    split_ifs with hid hpar
    · rfl
    · rw [hpar, ScopeTree.parent?, habove]; rfl
    · rfl
  case itemPath =>
    intro id
    rw [ScopeTree.itemPath, scope?_append]
    split_ifs with hid hpar
    · rw [ScopeTree.itemPath, habove]; rfl
    · rw [hpar, ScopeTree.itemPath, habove]; rfl
    · rfl
  case forks =>
    intro id
    rw [ScopeTree.forks, scope?_append]
    split_ifs with hid hpar hpar
    · exact absurd (hpar.symm.trans hid) hsize
    · rw [hid, ScopeTree.forks, scope?_of_le (Nat.le_refl _)]; rfl
    · rw [hpar, ScopeTree.forks, habove]; rfl
    · rfl
  case library? =>
    intro id
    rw [ScopeTree.library?, scope?_append]
    split_ifs with hid hpar
    · rw [ScopeTree.itemPath, ScopeTree.library?, habove]; rfl
    · rw [hpar, ScopeTree.library?, habove]; rfl
    · rfl

/-- A fork of an unknown scope fails, and the tree stays as it is. -/
theorem fork_of_le (hle : t.size ≤ parent) (index : Nat) :
    t.fork parent index = .error (.scopeNotFound parent) ∧ t.after (.fork parent index) = t := by
  have hfork : t.fork parent index = .error (.scopeNotFound parent) := by
    rw [fork, scope?_of_le hle]
  exact ⟨hfork, by simp only [ScopeTree.after, hfork]⟩

/-- A change leaves the arrangement as it is, or it is a fork that succeeds. -/
theorem after_cases (t : ScopeTree) (step : Step) :
    t.Similar (t.after step) ∨
      ∃ parent index, parent < t.size ∧ Forked parent index t (t.after step) := by
  cases step with
  | fork parent index =>
    by_cases hlt : parent < t.size
    · obtain ⟨t', hfork, hforked⟩ := fork_of_lt hlt index
      refine .inr ⟨parent, index, hlt, ?_⟩
      simp only [ScopeTree.after, hfork]
      exact hforked
    · rw [(fork_of_le (Nat.le_of_not_lt hlt) index).2]
      exact .inl (.refl t)
  | write scope c v =>
    simp only [ScopeTree.after]
    split
    · rename_i hw
      rw [write_eq] at hw
      exact .inl (.modify (c.parent_put v) (c.itemPath_put v) (c.forks_put v) (c.library_put v) hw)
    · exact .inl (.refl t)
  | setRoot scope handle =>
    simp only [ScopeTree.after]
    split
    · rename_i hw
      unfold ScopeTree.setRoot at hw
      refine .inl (.modify ?_ ?_ ?_ ?_ hw) <;> exact fun _ => rfl
    · exact .inl (.refl t)

/-! ## What older scopes keep -/

/-- The scopes of a tree are in a later one with the parent, the item path and the binding that
they have. -/
structure Kept (t t' : ScopeTree) : Prop where
  size_le : t.size ≤ t'.size
  parent? : ∀ id < t.size, t'.parent? id = t.parent? id
  itemPath : ∀ id < t.size, t'.itemPath id = t.itemPath id
  library? : ∀ id < t.size, t'.library? id = t.library? id

theorem Kept.refl (t : ScopeTree) : t.Kept t :=
  ⟨Nat.le_refl _, fun _ _ => rfl, fun _ _ => rfl, fun _ _ => rfl⟩

theorem Kept.trans (h : t.Kept t') (h' : t'.Kept t'') : t.Kept t'' where
  size_le := Nat.le_trans h.size_le h'.size_le
  parent? id hid := (h'.parent? id (Nat.lt_of_lt_of_le hid h.size_le)).trans (h.parent? id hid)
  itemPath id hid := (h'.itemPath id (Nat.lt_of_lt_of_le hid h.size_le)).trans (h.itemPath id hid)
  library? id hid := (h'.library? id (Nat.lt_of_lt_of_le hid h.size_le)).trans (h.library? id hid)

theorem kept_after (t : ScopeTree) (step : Step) : t.Kept (t.after step) := by
  obtain h | ⟨parent, index, -, h⟩ := after_cases t step
  · exact ⟨h.size.ge, fun id _ => h.parent? id, fun id _ => h.itemPath id,
      fun id _ => h.library? id⟩
  · -- The new scope is not one of those before.
    refine ⟨h.size ▸ Nat.le_succ _, fun id hid => ?_, fun id hid => ?_, fun id hid => ?_⟩
    · rw [h.parent?, if_neg (Nat.ne_of_lt hid)]
    · rw [h.itemPath, if_neg (Nat.ne_of_lt hid)]
    · rw [h.library?, if_neg (Nat.ne_of_lt hid)]

theorem kept_run (t : ScopeTree) (steps : List Step) : t.Kept (t.run steps) := by
  induction steps generalizing t with
  | nil => exact .refl t
  | cons step rest ih => exact (kept_after t step).trans (ih (t.after step))

/-! ## Well-formed trees -/

/-- Parents, item paths, lists of forks and bindings fit together. -/
structure WellFormed (library : Option Library) (t : ScopeTree) : Prop where
  root_lt : rootId < t.size
  /-- The root is the only scope that is below no other. -/
  parent?_eq_none : ∀ id < t.size, t.parent? id = none ↔ id = rootId
  ordered : t.Ordered
  itemPath_root : t.itemPath rootId = []
  /-- An item path goes on from that of the parent. -/
  itemPath : ∀ id p, t.parent? id = some p → ∃ index, t.itemPath id = t.itemPath p ++ [index]
  /-- The forks of a scope are those that have it as their parent, -/
  mem_forks : ∀ id c, c ∈ t.forks id ↔ t.parent? c = some id
  /-- each of them once, and in the order of their places. -/
  forks_sorted : ∀ id, (t.forks id).Pairwise (· < ·)
  /-- The library is bound to each scope as itself, or there is none to bind. -/
  library? : ∀ id < t.size, t.library? id = library.map fun l => ⟨l, id, t.itemPath id⟩

theorem wellFormed_new (library : Option Library) : (new library).WellFormed library := by
  have hparent : ∀ id, (new library).parent? id = none := by
    intro id
    cases id <;> rfl
  have hforks : ∀ id, (new library).forks id = [] := by
    intro id
    cases id <;> rfl
  have honly : ∀ id < (new library).size, id = rootId := fun id h => Nat.lt_one_iff.mp h
  constructor
  case root_lt => exact Nat.zero_lt_one
  case parent?_eq_none => exact fun id hid => ⟨fun _ => honly id hid, fun _ => hparent id⟩
  case ordered => exact ordered_new library
  case itemPath_root => rfl
  case itemPath => exact fun id p h => nomatch (hparent id).symm.trans h
  case mem_forks => simp [hparent, hforks]
  case forks_sorted => simp [hforks]
  case library? =>
    intro id hid
    obtain rfl := honly id hid
    rfl

theorem WellFormed.similar (ht : t.WellFormed library) (h : t.Similar t') :
    t'.WellFormed library := by
  constructor
  case root_lt => rw [h.size]; exact ht.root_lt
  case parent?_eq_none => rw [h.size]; simpa only [h.parent?] using ht.parent?_eq_none
  case ordered => simpa only [Ordered, h.parent?] using ht.ordered
  case itemPath_root => rw [h.itemPath]; exact ht.itemPath_root
  case itemPath => simpa only [h.parent?, h.itemPath] using ht.itemPath
  case mem_forks => simpa only [h.forks, h.parent?] using ht.mem_forks
  case forks_sorted => simpa only [h.forks] using ht.forks_sorted
  case library? => rw [h.size]; simpa only [h.library?, h.itemPath] using ht.library?

theorem WellFormed.forked (ht : t.WellFormed library) (hlt : parent < t.size)
    (h : Forked parent index t t') : t'.WellFormed library := by
  have hroot : rootId ≠ t.size := Nat.ne_of_lt ht.root_lt
  -- What is a parent is in the tree before, so it is not the new scope.
  have hparents : ∀ c p, t.parent? c = some p → c ≠ t.size ∧ p ≠ t.size := fun c p hp =>
    have hc : c < t.size := lt_of_parent? hp
    ⟨Nat.ne_of_lt hc, Nat.ne_of_lt (Nat.lt_trans (ht.ordered c p hp) hc)⟩
  constructor
  case root_lt =>
    rw [h.size]
    exact Nat.lt_succ_of_lt ht.root_lt
  case parent?_eq_none =>
    intro id hid
    rw [h.parent?]
    split
    · rename_i heq
      subst heq
      exact ⟨fun hnone => (nomatch hnone), fun he => absurd he.symm hroot⟩
    · rename_i hne
      have hold : id < t.size := Nat.lt_of_le_of_ne (Nat.le_of_lt_succ (hid.trans_eq h.size)) hne
      exact ht.parent?_eq_none id hold
  case ordered =>
    intro id p hp
    rw [h.parent?] at hp
    split at hp
    · rename_i heq
      obtain rfl := Option.some.inj hp
      exact heq ▸ hlt
    · exact ht.ordered id p hp
  case itemPath_root =>
    rw [h.itemPath, if_neg hroot]
    exact ht.itemPath_root
  case itemPath =>
    intro id p hp
    rw [h.parent?] at hp
    split at hp
    · rename_i heq
      obtain rfl := Option.some.inj hp
      rw [h.itemPath, h.itemPath, if_pos heq, if_neg (Nat.ne_of_lt hlt)]
      exact ⟨index, rfl⟩
    · rename_i hne
      rw [h.itemPath, h.itemPath, if_neg hne, if_neg (hparents id p hp).2]
      exact ht.itemPath id p hp
  case mem_forks =>
    intro id c
    rw [h.forks, h.parent?]
    have hmem : c ∈ t.forks id ↔ t.parent? c = some id := ht.mem_forks id c
    by_cases hc : c = t.size
    · -- The new scope has been nowhere, and it is now with its parent.
      have hnot : c ∉ t.forks id := fun hin => (hparents c id (hmem.mp hin)).1 hc
      rw [if_pos hc, Option.some_inj]
      split
      · rename_i heq
        simp [hc, heq]
      · rename_i hne
        exact iff_of_false hnot fun he => hne he.symm
    · rw [if_neg hc, ← hmem]
      split <;> simp [hc]
  case forks_sorted =>
    intro id
    rw [h.forks]
    split
    · refine List.pairwise_append.mpr ⟨ht.forks_sorted id, List.pairwise_singleton .., ?_⟩
      intro c hin new hnew
      obtain rfl := List.mem_singleton.mp hnew
      exact lt_of_parent? ((ht.mem_forks id c).mp hin)
    · exact ht.forks_sorted id
  case library? =>
    intro id hid
    rw [h.library?, h.itemPath]
    split
    · rename_i heq
      rw [ht.library? parent hlt, heq, Option.map_map]
      rfl
    · rename_i hne
      have hold : id < t.size := Nat.lt_of_le_of_ne (Nat.le_of_lt_succ (hid.trans_eq h.size)) hne
      exact ht.library? id hold

theorem WellFormed.after (ht : t.WellFormed library) (step : Step) :
    (t.after step).WellFormed library := by
  obtain h | ⟨parent, index, hlt, h⟩ := after_cases t step
  · exact ht.similar h
  · exact ht.forked hlt h

theorem WellFormed.run (ht : t.WellFormed library) (steps : List Step) :
    (t.run steps).WellFormed library := by
  induction steps generalizing t with
  | nil => exact ht
  | cons step rest ih => exact ih (ht.after step)

/-! ## The way to the root -/

/-- The walk from a scope from parent to parent, until there is none. -/
inductive Climb (t : ScopeTree) : ScopeId → List ScopeId → Prop where
  | top {id : ScopeId} (h : t.parent? id = none) : Climb t id [id]
  | up {id p : ScopeId} {above : List ScopeId} (h : t.parent? id = some p)
    (rest : Climb t p above) : Climb t id (id :: above)

/-- The chain of a scope is the whole walk; it ends at the root, and each step of it takes one
index off the item path. -/
theorem WellFormed.climb (ht : t.WellFormed library) (hid : id < t.size) :
    t.Climb id (t.chain id) ∧ (t.chain id).getLast? = some rootId ∧
      (t.chain id).length = (t.itemPath id).length + 1 := by
  induction id using Nat.strongRecOn with
  | ind id ih =>
    obtain ⟨sc, hsc⟩ := scope?_of_lt hid
    have hparent : t.parent? id = sc.parent := by rw [ScopeTree.parent?, hsc]; rfl
    rw [chain_of_parent ht.ordered hsc]
    cases hp : sc.parent with
    | none =>
      obtain rfl : id = rootId := (ht.parent?_eq_none id hid).mp (hparent.trans hp)
      rw [ht.itemPath_root]
      exact ⟨.top (hparent.trans hp), rfl, rfl⟩
    | some p =>
      have hp' : t.parent? id = some p := hparent.trans hp
      have hlt : p < id := ht.ordered id p hp'
      obtain ⟨hclimb, hlast, hlength⟩ := ih p hlt (Nat.lt_trans hlt hid)
      obtain ⟨index, hpath⟩ := ht.itemPath id p hp'
      refine ⟨.up hp' hclimb, ?_, ?_⟩
      · rw [Option.elim_some, List.getLast?_cons, hlast]
        rfl
      · rw [Option.elim_some, List.length_cons, hlength, hpath, List.length_append]
        rfl

/-! ## Every tree -/

/-- Every tree that is grown from a root is well-formed. From each of its scopes the walk from
parent to parent ends at the root, and has one scope more than the item path has indices. A fork of
a scope of the tree adds one scope, below it and with the index at the end of its item path; a fork
of any other fails and changes nothing. Whatever follows, a scope keeps its parent, its item path
and its binding. -/
theorem arranged_run (library : Option Library) (steps : List Step) :
    let t := (new library).run steps
    t.WellFormed library ∧
    (∀ id < t.size, t.Climb id (t.chain id) ∧ (t.chain id).getLast? = some rootId ∧
      (t.itemPath id).length = (t.chain id).length - 1) ∧
    (∀ parent index, parent < t.size →
      ∃ t', t.fork parent index = .ok (t.size, t') ∧ t'.size = t.size + 1 ∧
        t'.parent? t.size = some parent ∧
        t'.itemPath t.size = t.itemPath parent ++ [index] ∧ t.Kept t') ∧
    (∀ parent index, t.size ≤ parent →
      t.fork parent index = .error (.scopeNotFound parent) ∧
        t.after (.fork parent index) = t) ∧
    ∀ more, t.Kept (t.run more) := by
  intro t
  have ht : t.WellFormed library := (wellFormed_new library).run steps
  refine ⟨ht, fun id hid => ?_, fun parent index hlt => ?_, fun parent index hle => ?_, ?_⟩
  · obtain ⟨hclimb, hlast, hlength⟩ := ht.climb hid
    exact ⟨hclimb, hlast, by rw [hlength, Nat.add_sub_cancel]⟩
  · obtain ⟨t', hfork, hforked⟩ := fork_of_lt hlt index
    refine ⟨t', hfork, hforked.size, ?_, ?_, ?_⟩
    · rw [hforked.parent?, if_pos rfl]
    · rw [hforked.itemPath, if_pos rfl]
    · have hafter : t.after (.fork parent index) = t' := by simp only [ScopeTree.after, hfork]
      exact hafter ▸ kept_after t (.fork parent index)
  · exact fork_of_le hle index
  · exact kept_run t

/-- The lineage of a root, its two forks, and a fork of the first of them. -/
theorem arranged_run_lineage :
    let t := (new none).run lineage
    t.Climb 2 [2, 1, 0] ∧ (t.itemPath 2).length = 2 ∧
      (∃ t', t.fork 2 9 = .ok (4, t') ∧ t'.itemPath 4 = t.itemPath 2 ++ [9]) ∧
      t.fork 7 0 = .error (.scopeNotFound 7) := by
  intro t
  obtain ⟨-, hwalk, hfork, hunknown, -⟩ := arranged_run none lineage
  have hchain : t.chain 2 = [2, 1, 0] := by cbv
  obtain ⟨hclimb, -, hlength⟩ := hwalk 2 (by decide)
  obtain ⟨t', hforked, -, -, hpath, -⟩ := hfork 2 9 (by decide)
  rw [show ((new none).run lineage).chain 2 = [2, 1, 0] from hchain] at hclimb hlength
  exact ⟨hclimb, hlength, ⟨t', hforked, hpath⟩, (hunknown 7 0 (by decide)).1⟩

end ScopeTree

end Dataflow
