import Dataflow.Proofs.LiveReads
import Dataflow.Proofs.TableLists
import Dataflow.Scope.View
import Mathlib.Data.List.Chain

/-!
# What is seen from a scope at once

A single read looks for a name on the way up from a scope and takes the first answer. A view is made
on the way down from the root, and what is met later is laid over what has been met before. Both
find the same (`get?_merged`), and the names of a view stand in the order in which they are met on
the way down (`keys_merged`).

Both go by the parent of a scope: the way down to a scope is that down to its parent, and then the
scope itself (`fromRoot_eq`). In a tree that is grown from a root every way starts there
(`wayDown_chain`), and every dataset that a scope has recorded has a role (`each_grown`). The main
result is `views_agree`.
-/

namespace Dataflow

namespace ScopeTree

variable {t : ScopeTree} {id : ScopeId} {sc : Scope} {κ α : Type} [DecidableEq κ]

/-! ## From the root down -/

theorem parent?_eq_some {p : ScopeId} (h : t.scope? id = some sc) (hp : sc.parent = some p) :
    t.parent? id = some p := by
  rw [parent?, h, Option.bind_some, hp]

theorem chain_of_parent (ht : t.Ordered) (h : t.scope? id = some sc) :
    t.chain id = id :: sc.parent.elim [] t.chain := by
  rw [chain, h]
  dsimp only
  cases hp : sc.parent with
  | none => rfl
  | some p =>
    have hlt : p < id := ht id p (parent?_eq_some h hp)
    simp only [if_pos hlt, Option.elim_some]

/-- The way down to a scope is the way down to its parent, and then the scope. -/
theorem fromRoot_eq (ht : t.Ordered) (h : t.scope? id = some sc) :
    t.fromRoot id = sc.parent.elim [] t.fromRoot ++ [sc] := by
  rw [fromRoot, chain_of_parent ht h, List.reverse_cons, List.filterMap_append]
  cases sc.parent <;> simp [fromRoot, h]

theorem fromRoot_of_none (h : t.scope? id = none) : t.fromRoot id = [] := by
  rw [fromRoot, chain, h]
  rfl

/-- A view is the table of one list: all that the scopes on the way down have, one after another. -/
theorem merged_eq_ofList (t : ScopeTree) (id : ScopeId) (table : Scope → Table κ α) :
    t.merged id table = Table.ofList ((t.fromRoot id).flatMap fun sc => (table sc).entries) := by
  have hfold : ∀ (scopes : List Scope) (seen : Table κ α),
      scopes.foldl (fun seen sc => seen.insertAll (table sc).entries) seen =
        seen.insertAll (scopes.flatMap fun sc => (table sc).entries) := by
    intro scopes
    induction scopes with
    | nil => exact fun _ => rfl
    | cons sc rest ih =>
      intro seen
      rw [List.foldl_cons, ih, List.flatMap_cons, Table.insertAll_append]
  exact hfold _ _

/-- The view from a scope is the view from its parent, under what the scope has itself. -/
theorem merged_of_parent (ht : t.Ordered) (h : t.scope? id = some sc)
    (table : Scope → Table κ α) :
    t.merged id table =
      (sc.parent.elim .empty fun p => t.merged p table).insertAll (table sc).entries := by
  rw [merged, fromRoot_eq ht h, List.foldl_append]
  cases sc.parent <;> rfl

/-- What is laid on top is what is found first. -/
theorem get?_merged (ht : t.Ordered) (id : ScopeId) (table : Scope → Table κ α) (k : κ) :
    (t.merged id table).get? k = t.lookup id fun sc => (table sc).get? k := by
  induction id using Nat.strongRecOn with
  | ind id ih =>
    cases h : t.scope? id with
    | none =>
      rw [lookup_of_none h, merged, fromRoot_of_none h]
      rfl
    | some sc =>
      rw [merged_of_parent ht h, Table.get?_insertAll_entries, lookup_of_some h]
      cases hp : sc.parent with
      | none => rfl
      | some p =>
        have hlt : p < id := ht id p (parent?_eq_some h hp)
        rw [Option.elim_some, ih p hlt, Option.bind_some, if_pos hlt]

theorem keys_merged (t : ScopeTree) (id : ScopeId) (table : Scope → Table κ α) :
    (t.merged id table).keys = ((t.fromRoot id).flatMap fun sc => (table sc).keys).eraseDups := by
  rw [merged_eq_ofList, Table.keys_ofList, List.map_flatMap]
  rfl

/-! ## Datasets -/

theorem get?_dataset (ht : t.Ordered) (id : ScopeId) (dataset role : String) :
    ((t.dataset? id dataset).bind fun roles => roles.get? role) = t.dataRole? id dataset role := by
  have hmerged := get?_merged ht id (fun sc => sc.roles dataset) role
  unfold dataset?
  split
  · exact hmerged
  · rename_i hnone
    -- No scope on the way has a record of the dataset, so none has a role of it.
    rw [dataRole?, ← hmerged, merged_eq_ofList]
    have hempty : ((t.fromRoot id).flatMap fun sc => (sc.roles dataset).entries) = [] := by
      rw [List.flatMap_eq_nil_iff]
      intro sc hsc
      have hlacks : sc.data.contains dataset = false := by
        simp only [List.any_eq_true, not_exists, not_and, Bool.not_eq_true] at hnone
        exact hnone sc hsc
      rw [Table.contains, Option.isSome_eq_false_iff, Option.isNone_iff_eq_none] at hlacks
      rw [Scope.roles, hlacks]
      rfl
    rw [hempty]
    rfl

theorem isSome_dataset? (t : ScopeTree) (id : ScopeId) (dataset : String) :
    (t.dataset? id dataset).isSome = true ↔
      ∃ sc ∈ t.fromRoot id, sc.data.contains dataset = true := by
  unfold dataset?
  split
  · rename_i h
    simpa using h
  · rename_i h
    simpa using h

theorem mem_datasets (t : ScopeTree) (id : ScopeId) (dataset : String) :
    dataset ∈ t.datasets id ↔ (t.dataset? id dataset).isSome = true := by
  rw [datasets, keys_merged, List.mem_eraseDups, List.mem_flatMap, isSome_dataset?]
  simp only [Table.mem_keys_iff, Table.contains]

theorem keys_dataset? {dataset : String} {roles : Table String Handle}
    (h : t.dataset? id dataset = some roles) :
    roles.keys = ((t.fromRoot id).flatMap fun sc => (sc.roles dataset).keys).eraseDups := by
  unfold dataset? at h
  split at h
  · rw [← Option.some.inj h, keys_merged]
  · cases h

/-! ## Above and below -/

/-- The view from a scope goes on from the view from its parent. -/
theorem keys_merged_of_parent (ht : t.Ordered) {p : ScopeId} (hp : t.parent? id = some p)
    (table : Scope → Table κ α) : (t.merged p table).keys <+: (t.merged id table).keys := by
  obtain ⟨sc, h, hparent⟩ := Option.bind_eq_some_iff.mp hp
  rw [merged_of_parent ht h, hparent]
  exact Table.keys_prefix_insertAll _ _

theorem keys_merged_of_under (ht : t.Ordered) {a : ScopeId} (h : t.Under id a)
    (table : Scope → Table κ α) : (t.merged a table).keys <+: (t.merged id table).keys := by
  induction h using Relation.ReflTransGen.head_induction_on with
  | refl => exact List.prefix_rfl
  | head hp _ ih => exact ih.trans (keys_merged_of_parent ht hp table)

/-- A scope sees the datasets that are seen from above it. -/
theorem dataset?_of_under (ht : t.Ordered) {a : ScopeId} (h : t.Under id a) {dataset : String}
    {roles : Table String Handle} (ha : t.dataset? a dataset = some roles) :
    ∃ more, t.dataset? id dataset = some more ∧ roles.keys <+: more.keys := by
  have hmem : dataset ∈ t.datasets id :=
    (keys_merged_of_under ht h Scope.data).subset ((mem_datasets t a dataset).mpr (by simp [ha]))
  obtain ⟨more, hmore⟩ := Option.isSome_iff_exists.mp ((mem_datasets t id dataset).mp hmem)
  refine ⟨more, hmore, ?_⟩
  have hkeys := keys_merged_of_under ht h fun sc => sc.roles dataset
  rwa [keys_merged, keys_merged, ← keys_dataset? ha, ← keys_dataset? hmore] at hkeys

/-! ## Every scope of a grown tree -/

/-- Every scope of the tree is like this. -/
def Each (Q : ScopeId → Scope → Prop) (t : ScopeTree) : Prop :=
  ∀ id sc, t.scope? id = some sc → Q id sc

section

variable {Q : ScopeId → Scope → Prop}

theorem Each.modify {f : Scope → Scope} (hf : ∀ id sc, Q id sc → Q id (f sc)) (ht : t.Each Q)
    {t' : ScopeTree} (h : t.modify id f = .ok t') : t'.Each Q := by
  unfold ScopeTree.modify at h
  split at h
  · obtain rfl := Except.ok.inj h
    intro other sc hsc
    rw [scope?_edit] at hsc
    split at hsc
    · rename_i heq
      subst heq
      obtain ⟨old, hold, rfl⟩ := Option.map_eq_some_iff.mp hsc
      exact hf other old (ht other old hold)
    · exact ht other sc hsc
  · cases h

theorem Each.fork (hforks : ∀ id sc forks, Q id sc → Q id { sc with forks := forks })
    (hfresh : ∀ id parent itemPath library, Q id (.fresh (some parent) itemPath library))
    (ht : t.Each Q) {parent : ScopeId} {index : Nat} {t' : ScopeTree}
    (h : t.fork parent index = .ok (id, t')) : t'.Each Q := by
  unfold ScopeTree.fork at h
  cases hp : t.scope? parent with
  | none => simp [hp] at h
  | some above =>
    simp only [hp, Except.ok.injEq, Prod.mk.injEq] at h
    obtain ⟨-, rfl⟩ := h
    intro other sc hsc
    rw [scope?, List.getElem?_append] at hsc
    -- A scope is one of those before, or it is the new one.
    split at hsc
    · rw [List.getElem?_modify] at hsc
      obtain ⟨old, hold, rfl⟩ := Option.map_eq_some_iff.mp hsc
      split
      · exact hforks other old _ (ht other old hold)
      · exact ht other old hold
    · rw [List.getElem?_singleton] at hsc
      split at hsc
      · obtain rfl := Option.some.inj hsc
        exact hfresh other parent _ _
      · cases hsc

/-- What a change of one scope and a fork keep of every scope holds of every scope. -/
theorem Each.run (hput : ∀ id sc (c : Cell) v, Q id sc → Q id (c.put v sc))
    (hroot : ∀ id sc h, Q id sc → Q id { sc with root := some h })
    (hforks : ∀ id sc forks, Q id sc → Q id { sc with forks := forks })
    (hfresh : ∀ id parent itemPath library, Q id (.fresh (some parent) itemPath library))
    (ht : t.Each Q) (steps : List Step) : (t.run steps).Each Q := by
  induction steps generalizing t with
  | nil => exact ht
  | cons step rest ih =>
    refine ih (t := t.after step) ?_
    cases step with
    | fork parent index =>
      simp only [ScopeTree.after]
      split
      · rename_i hf
        exact ht.fork hforks hfresh hf
      · exact ht
    | write scope c v =>
      simp only [ScopeTree.after]
      split
      · rename_i hw
        exact ht.modify (fun id sc => hput id sc c v) ((t.write_eq scope c v).symm.trans hw)
      · exact ht
    | setRoot scope handle =>
      simp only [ScopeTree.after]
      split
      · rename_i hw
        exact ht.modify (fun id sc => hroot id sc handle) hw
      · exact ht

end

/-- Only the root has no parent, and every dataset that the scope has recorded has a role. -/
structure Grown (id : ScopeId) (sc : Scope) : Prop where
  rooted : sc.parent = none → id = rootId
  filled : ∀ dataset roles, sc.data.get? dataset = some roles → ∃ role h, roles.get? role = some h

theorem Grown.put {sc : Scope} (h : Grown id sc) (c : Cell) (v : c.Value) :
    Grown id (c.put v sc) := by
  refine ⟨fun hparent => h.rooted ((c.parent_put v sc).symm.trans hparent), ?_⟩
  intro dataset roles hd
  cases c with
  | role d name =>
    rw [Cell.put, Table.get?_insert] at hd
    split at hd
    · -- The record that is written has at least the role that is written.
      rw [← Option.some.inj hd]
      exact ⟨name, v, by rw [Table.get?_insert, if_pos rfl]⟩
    · exact h.filled dataset roles hd
  | _ => exact h.filled dataset roles hd

theorem each_grown (library : Option Library) (steps : List Step) :
    ((new library).run steps).Each Grown := by
  have hfresh : ∀ id parent itemPath library,
      Grown id (.fresh (some parent) itemPath library) :=
    fun _ _ _ _ => ⟨fun h => (nomatch h), fun _ _ h => (nomatch h)⟩
  refine Each.run (fun _ _ c v h => h.put c v) (fun _ _ _ h => ⟨h.rooted, h.filled⟩)
    (fun _ _ _ h => ⟨h.rooted, h.filled⟩) hfresh ?_ steps
  -- At the start there is only the root, and it has recorded nothing.
  intro id sc h
  cases id with
  | zero =>
    obtain rfl := Option.some.inj h
    exact ⟨fun _ => rfl, fun _ _ h => (nomatch h)⟩
  | succ n => exact nomatch h

/-! ## Ways -/

/-- The scopes on the way from the root down to a scope, each the parent of the next. -/
structure WayDown (t : ScopeTree) (path : List ScopeId) (id : ScopeId) : Prop where
  first : path.head? = some rootId
  last : path.getLast? = some id
  steps : path.IsChain fun p child => t.parent? child = some p

/-- In a tree that is grown from a root, the chain of a scope is the way down to it, backwards. -/
theorem wayDown_chain (ht : t.Ordered) (hg : t.Each Grown) (known : id < t.size) :
    t.WayDown (t.chain id).reverse id := by
  induction id using Nat.strongRecOn with
  | ind id ih =>
    have h : t.scope? id = some t.scopes[id] := List.getElem?_eq_getElem known
    rw [chain_of_parent ht h]
    cases hp : t.scopes[id].parent with
    | none =>
      obtain rfl := (hg id _ h).rooted hp
      exact ⟨rfl, rfl, List.isChain_singleton _⟩
    | some p =>
      have hparent : t.parent? id = some p := parent?_eq_some h hp
      have hlt : p < id := ht id p hparent
      obtain ⟨hfirst, hlast, hsteps⟩ := ih p hlt (Nat.lt_trans hlt known)
      rw [Option.elim_some, List.reverse_cons]
      refine ⟨?_, List.getLast?_concat, ?_⟩
      · rw [List.head?_append, hfirst]
        rfl
      · refine List.isChain_append.mpr ⟨hsteps, List.isChain_singleton _, ?_⟩
        intro a ha b hb
        rw [hlast] at ha
        cases ha
        cases hb
        exact hparent

/-- The names that the scopes on a way have in a table, in the order in which they are met first. -/
def met (t : ScopeTree) (path : List ScopeId) (table : Scope → Table κ α) : List κ :=
  (path.flatMap fun a => (t.scope? a).elim [] fun sc => (table sc).keys).eraseDups

theorem keys_merged_eq_met (t : ScopeTree) (id : ScopeId) (table : Scope → Table κ α) :
    ((t.fromRoot id).flatMap fun sc => (table sc).keys).eraseDups =
      t.met (t.chain id).reverse table := by
  rw [met, fromRoot]
  congr 1
  induction (t.chain id).reverse with
  | nil => rfl
  | cons a rest ih =>
    rw [List.filterMap_cons, List.flatMap_cons, ← ih]
    cases t.scope? a <;> rfl

/-- A dataset is seen if a scope on the way has a role of it. -/
theorem isSome_dataset?_iff (hg : t.Each Grown) (id : ScopeId) (dataset : String) :
    (t.dataset? id dataset).isSome = true ↔
      ∃ a ∈ (t.chain id).reverse, ∃ role h, t.holds a (.role dataset role) = some h := by
  rw [isSome_dataset?]
  constructor
  · rintro ⟨sc, hsc, hd⟩
    obtain ⟨a, ha, hsc⟩ := List.mem_filterMap.mp hsc
    obtain ⟨roles, hroles⟩ := Option.isSome_iff_exists.mp hd
    obtain ⟨role, h, hrole⟩ := (hg a sc hsc).filled dataset roles hroles
    refine ⟨a, ha, role, h, ?_⟩
    rw [holds, hsc, Option.bind_some, Cell.held, Scope.roles, hroles]
    exact hrole
  · rintro ⟨a, ha, role, h, hheld⟩
    obtain ⟨sc, hsc, hrole⟩ := Option.bind_eq_some_iff.mp hheld
    refine ⟨sc, List.mem_filterMap.mpr ⟨a, ha, hsc⟩, ?_⟩
    rw [Table.contains]
    cases hd : sc.data.get? dataset with
    | some roles => rfl
    | none =>
      rw [Cell.held, Scope.roles, hd] at hrole
      cases hrole

/-! ## All views of a scope -/

/-- The views from a scope show what single reads find, and nothing else. Their names come in the
order in which they are met on the way down, so that a scope adds its own to those above it. -/
structure Overview (t : ScopeTree) (path : List ScopeId) (id : ScopeId) : Prop where
  signals : ∀ name, (t.signals id).get? name = t.signal? id name
  scales : ∀ name, (t.scales id).get? name = t.scale? id name
  /-- A dataset is seen if a scope on the way has a role of it. -/
  present : ∀ dataset, (t.dataset? id dataset).isSome = true ↔
    ∃ a ∈ path, ∃ role h, t.holds a (.role dataset role) = some h
  roles : ∀ dataset role, ((t.dataset? id dataset).bind fun seen => seen.get? role) =
    t.dataRole? id dataset role
  datasets : ∀ dataset, dataset ∈ t.datasets id ↔ (t.dataset? id dataset).isSome = true
  datasets_once : (t.datasets id).Nodup
  signals_order : (t.signals id).keys = t.met path Scope.signals
  scales_order : (t.scales id).keys = t.met path Scope.scales
  roles_order : ∀ dataset seen, t.dataset? id dataset = some seen →
    seen.keys = t.met path fun sc => sc.roles dataset
  datasets_order : t.datasets id = t.met path Scope.data
  /-- What is seen from above comes first. -/
  above : ∀ a, t.Under id a → (t.signals a).keys <+: (t.signals id).keys ∧
    (t.scales a).keys <+: (t.scales id).keys ∧ t.datasets a <+: t.datasets id ∧
    ∀ dataset seen, t.dataset? a dataset = some seen →
      ∃ more, t.dataset? id dataset = some more ∧ seen.keys <+: more.keys

/-- In every tree that is grown from a root by forks and writes, the views from a scope agree with
the single reads from it. Their names stand in the order in which they are met first on the way from
the root down to the scope. -/
theorem views_agree (library : Option Library) (steps : List Step) (id : ScopeId)
    (known : id < ((new library).run steps).size) :
    let t := (new library).run steps
    ∃ path, t.WayDown path id ∧ t.Overview path id := by
  intro t
  have ht : t.Ordered := (ordered_new library).run steps
  have hg : t.Each Grown := each_grown library steps
  have hkeys : ∀ {κ α : Type} [DecidableEq κ] (table : Scope → Table κ α),
      (t.merged id table).keys = t.met (t.chain id).reverse table :=
    fun table => (keys_merged t id table).trans (keys_merged_eq_met t id table)
  refine ⟨(t.chain id).reverse, wayDown_chain ht hg known, ?_⟩
  exact {
    signals := fun name => get?_merged ht id Scope.signals name
    scales := fun name => get?_merged ht id Scope.scales name
    present := fun dataset => isSome_dataset?_iff hg id dataset
    roles := fun dataset role => get?_dataset ht id dataset role
    datasets := fun dataset => mem_datasets t id dataset
    datasets_once := (t.merged id Scope.data).distinct
    signals_order := hkeys Scope.signals
    scales_order := hkeys Scope.scales
    roles_order := fun dataset seen h =>
      (keys_dataset? h).trans (keys_merged_eq_met t id fun sc => sc.roles dataset)
    datasets_order := hkeys Scope.data
    above := fun a ha => ⟨keys_merged_of_under ht ha _, keys_merged_of_under ht ha _,
      keys_merged_of_under ht ha _, fun _ _ h => dataset?_of_under ht ha h⟩ }

/-- A root with two signals and a role, and a fork of it that has one of the signals and a role of
the same dataset itself. -/
def shadowed : List Step :=
  [.write rootId (.signal "size") 1, .fork rootId 0, .write 1 (.signal "color") 2,
    .write 1 (.signal "size") 3, .write 1 (.role "table" "facet") 4,
    .write rootId (.role "table" "values") 5]

/-- The fork sees its own node under the name that it shares with the root, in the place where the
root has it. -/
theorem views_agree_shadowed :
    let t := (new none).run shadowed
    1 < t.size ∧ (t.signals 1).get? "size" = t.signal? 1 "size" ∧ t.signal? 1 "size" = some 3 ∧
      (t.signals 1).keys = ["size", "color"] ∧
      ((t.dataset? 1 "table").bind fun seen => seen.get? "values") = some 5 := by
  intro t
  have known : 1 < t.size := by decide
  obtain ⟨path, -, hviews⟩ := views_agree none shadowed 1 known
  refine ⟨known, hviews.signals "size", by decide +kernel, by decide +kernel, ?_⟩
  rw [hviews.roles]
  decide +kernel

end ScopeTree

end Dataflow
