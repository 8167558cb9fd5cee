import Dataflow.Table
import Mathlib.Data.List.Induction

/-!
# Tables that are filled from lists

When the pairs of a list are stored in turn, a key stands where it occurs first, and the last value
counts that is stored under it (`keys_ofList`, `get?_ofList_last`). When the pairs are the entries
of a table, this table is laid over the other one: what it has counts, and what it lacks is still
seen (`get?_insertAll_entries`).
-/

namespace Dataflow

namespace Table

variable {κ α : Type} [DecidableEq κ]

/-! ## Entries and keys -/

theorem find_of_mem {k : κ} {a : α} {entries : List (κ × α)} (h : (entries.map Prod.fst).Nodup)
    (hmem : (k, a) ∈ entries) : find k entries = some a := by
  induction entries with
  | nil => cases hmem
  | cons e rest ih =>
    obtain ⟨j, b⟩ := e
    rw [List.map_cons, List.nodup_cons] at h
    rw [find]
    obtain heq | hmem := List.mem_cons.mp hmem
    · cases heq
      rw [if_pos rfl]
    · -- The key of a later entry is another one.
      have hne : j ≠ k := fun he => h.1 (List.mem_map.mpr ⟨_, hmem, he.symm⟩)
      rw [if_neg hne]
      exact ih h.2 hmem

theorem mem_entries_iff {t : Table κ α} {k : κ} {a : α} :
    (k, a) ∈ t.entries ↔ t.get? k = some a :=
  ⟨find_of_mem t.distinct, mem_of_find⟩

theorem mem_keys_iff {t : Table κ α} {k : κ} : k ∈ t.keys ↔ (t.get? k).isSome = true := by
  constructor
  · intro h
    obtain ⟨⟨j, a⟩, hmem, rfl⟩ := List.mem_map.mp h
    rw [mem_entries_iff.mp hmem]
    rfl
  · intro h
    obtain ⟨a, ha⟩ := Option.isSome_iff_exists.mp h
    exact List.mem_map_of_mem (mem_entries_iff.mpr ha)

theorem store_of_find_eq_none {k : κ} {entries : List (κ × α)} (h : find k entries = none) (a : α) :
    store k a entries = entries ++ [(k, a)] := by
  induction entries with
  | nil => rfl
  | cons e rest ih =>
    obtain ⟨j, b⟩ := e
    rw [find] at h
    split at h
    · cases h
    · rename_i hne
      rw [store, if_neg hne, ih h, List.cons_append]

/-- A new key goes to the end, and everything else stays in its place. -/
theorem entries_insert_of_none {t : Table κ α} {k : κ} (h : t.get? k = none) (a : α) :
    (t.insert k a).entries = t.entries ++ [(k, a)] :=
  store_of_find_eq_none h a

/-! ## Lists of pairs -/

theorem insertAll_append (t : Table κ α) (xs ys : List (κ × α)) :
    t.insertAll (xs ++ ys) = (t.insertAll xs).insertAll ys :=
  List.foldl_append

theorem ofList_concat (xs : List (κ × α)) (k : κ) (a : α) :
    ofList (xs ++ [(k, a)]) = (ofList xs).insert k a :=
  insertAll_append _ _ _

/-- The keys stand in the order in which they occur first. -/
theorem keys_ofList (xs : List (κ × α)) : (ofList xs).keys = (xs.map Prod.fst).eraseDups := by
  induction xs using List.reverseRecOn with
  | nil => rfl
  | append_singleton xs e ih =>
    obtain ⟨k, a⟩ := e
    rw [ofList_concat, keys_insert, ih, List.map_append, List.eraseDups_append]
    simp only [List.mem_eraseDups, List.map_cons, List.map_nil]
    by_cases hk : k ∈ xs.map Prod.fst
    · simp [hk, List.removeAll]
    · simp [hk, List.removeAll, List.eraseDups_cons]

/-- Pairs with other keys do not change what is stored under a key. -/
theorem get?_insertAll_of_not_mem {k : κ} {xs : List (κ × α)} (h : k ∉ xs.map Prod.fst)
    (t : Table κ α) : (t.insertAll xs).get? k = t.get? k := by
  induction xs generalizing t with
  | nil => rfl
  | cons e rest ih =>
    rw [List.map_cons, List.mem_cons, not_or] at h
    refine (ih h.2 _).trans ?_
    rw [get?_insert, if_neg fun he => h.1 he.symm]

/-- The last pair with a key counts. -/
theorem get?_ofList_last {k : κ} {after : List (κ × α)} (h : k ∉ after.map Prod.fst)
    (before : List (κ × α)) (a : α) : (ofList (before ++ (k, a) :: after)).get? k = some a := by
  rw [ofList, insertAll_append]
  refine (get?_insertAll_of_not_mem h _).trans ?_
  rw [get?_insert, if_pos rfl]

/-- Storing more pairs only appends keys. -/
theorem keys_prefix_insertAll (t : Table κ α) (xs : List (κ × α)) :
    t.keys <+: (t.insertAll xs).keys := by
  induction xs generalizing t with
  | nil => exact List.prefix_rfl
  | cons e rest ih =>
    have hfirst : t.keys <+: (t.insert e.1 e.2).keys := by
      rw [keys_insert]
      split
      · exact List.prefix_rfl
      · exact List.prefix_append _ _
    exact hfirst.trans (ih _)

/-! ## One table over another -/

/-- A table that is laid over another one hides what has the same keys. -/
theorem get?_insertAll_entries (t u : Table κ α) (k : κ) :
    (t.insertAll u.entries).get? k = (u.get? k).or (t.get? k) := by
  cases h : u.get? k with
  | none =>
    have hnot : k ∉ u.keys := by
      rw [mem_keys_iff, h]
      exact Bool.false_ne_true
    exact get?_insertAll_of_not_mem hnot t
  | some a =>
    -- The key occurs once among the entries, so its pair is also the last one with it.
    obtain ⟨before, after, hsplit⟩ := List.append_of_mem (mem_entries_iff.mpr h)
    have hdistinct := u.distinct
    rw [hsplit, List.map_append, List.map_cons, List.nodup_append, List.nodup_cons] at hdistinct
    rw [hsplit, insertAll_append]
    refine (get?_insertAll_of_not_mem hdistinct.2.1.1 _).trans ?_
    rw [get?_insert, if_pos rfl]
    rfl

end Table

end Dataflow
