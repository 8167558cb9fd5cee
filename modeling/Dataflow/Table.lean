/-! # Insertion-ordered tables

A `Table κ α` associates values with keys and remembers the order in which the keys were first
stored.  Storing under a key that is present replaces the value and keeps the key's place; a new
key goes to the end.  Every name table of a scope, every parameter set and every registry is one.

The view is `Table.entries`.  Main statements:

* `get?_insert`   reading after a write sees the write at its key and the old table elsewhere
* `keys_insert`   a write changes the list of keys only by appending a new key -/

namespace Dataflow

/-- Associations in the order in which their keys were first stored; no key occurs twice. -/
structure Table (κ α : Type) where
  entries : List (κ × α)
  distinct : (entries.map Prod.fst).Nodup

namespace Table

variable {κ α β : Type}

/-- The table without entries. -/
def empty : Table κ α := ⟨[], by simp⟩

instance : EmptyCollection (Table κ α) := ⟨empty⟩

instance : Inhabited (Table κ α) := ⟨empty⟩

/-- The keys, oldest first. -/
def keys (t : Table κ α) : List κ := t.entries.map Prod.fst

/-- The values, in the order of their keys. -/
def values (t : Table κ α) : List α := t.entries.map Prod.snd

/-- The number of entries. -/
def size (t : Table κ α) : Nat := t.entries.length

/-- Whether the table has no entries. -/
def isEmpty (t : Table κ α) : Bool := t.entries.isEmpty

variable [DecidableEq κ]

/-- The value of the first entry with key `k`. -/
def find (k : κ) : List (κ × α) → Option α
  | [] => none
  | (j, a) :: rest => if j = k then some a else find k rest

/-- The value stored under `k`. -/
def get? (t : Table κ α) (k : κ) : Option α := find k t.entries

/-- Whether a value is stored under `k`. -/
def contains (t : Table κ α) (k : κ) : Bool := (t.get? k).isSome

/-- Replaces the value of the entry with key `k`, or appends one. -/
def store (k : κ) (a : α) : List (κ × α) → List (κ × α)
  | [] => [(k, a)]
  | (j, b) :: rest => if j = k then (j, a) :: rest else (j, b) :: store k a rest

theorem map_fst_store (k : κ) (a : α) (entries : List (κ × α)) :
    (store k a entries).map Prod.fst =
      if k ∈ entries.map Prod.fst then entries.map Prod.fst else entries.map Prod.fst ++ [k] := by
  induction entries with
  | nil => simp [store]
  | cons e rest ih =>
    obtain ⟨j, b⟩ := e
    by_cases h : j = k
    · simp [store, h]
    · have hk : ¬ k = j := fun e => h e.symm
      simp only [store, if_neg h, List.map_cons, ih, List.mem_cons, hk, false_or]
      split <;> simp

theorem nodup_store (k : κ) (a : α) {entries : List (κ × α)} (h : (entries.map Prod.fst).Nodup) :
    ((store k a entries).map Prod.fst).Nodup := by
  rw [map_fst_store]
  split
  · exact h
  · next hk =>
    rw [List.nodup_append]
    refine ⟨h, by simp, ?_⟩
    intro x hx y hy
    obtain rfl : y = k := by simpa using hy
    exact fun e => hk (e ▸ hx)

/-- Stores `a` under `k`. -/
def insert (t : Table κ α) (k : κ) (a : α) : Table κ α :=
  ⟨store k a t.entries, nodup_store k a t.distinct⟩

/-- Stores every pair of a list in turn. -/
def insertAll (t : Table κ α) (entries : List (κ × α)) : Table κ α :=
  entries.foldl (fun t e => t.insert e.1 e.2) t

/-- The table of a list of pairs; of several pairs with one key the last value counts. -/
def ofList (entries : List (κ × α)) : Table κ α := empty.insertAll entries

/-- Applies `f` to every value. -/
def map (f : α → β) (t : Table κ α) : Table κ β :=
  ⟨t.entries.map fun e => (e.1, f e.2), by
    simpa [List.map_map, Function.comp_def] using t.distinct⟩

/-! ## Reading and writing -/

theorem find_store (k j : κ) (a : α) (entries : List (κ × α)) :
    find j (store k a entries) = if k = j then some a else find j entries := by
  induction entries with
  | nil => simp [store, find]
  | cons e rest ih =>
    obtain ⟨i, b⟩ := e
    by_cases h : i = k
    · subst h
      by_cases hj : i = j <;> simp [store, find, hj]
    · by_cases hj : i = j
      · subst hj
        have hk : ¬ k = i := fun e => h e.symm
        simp [store, find, h, hk]
      · simp [store, find, h, hj, ih]

@[simp] theorem get?_empty (k : κ) : (empty : Table κ α).get? k = none := rfl

theorem get?_insert (t : Table κ α) (k j : κ) (a : α) :
    (t.insert k a).get? j = if k = j then some a else t.get? j :=
  find_store k j a t.entries

theorem mem_of_find {k : κ} {a : α} {entries : List (κ × α)} (h : find k entries = some a) :
    (k, a) ∈ entries := by
  induction entries with
  | nil => simp [find] at h
  | cons e rest ih =>
    obtain ⟨j, b⟩ := e
    unfold find at h
    split at h
    · rename_i hj
      obtain rfl := Option.some.inj h
      simp [hj]
    · exact List.mem_cons_of_mem _ (ih h)

theorem mem_store {k : κ} {a : α} {entries : List (κ × α)} {e : κ × α}
    (h : e ∈ store k a entries) : e = (k, a) ∨ e ∈ entries := by
  induction entries with
  | nil => exact .inl (by simpa [store] using h)
  | cons f rest ih =>
    obtain ⟨j, b⟩ := f
    unfold store at h
    split at h
    · rename_i hj
      obtain rfl | h := List.mem_cons.mp h
      · exact .inl (by rw [hj])
      · exact .inr (List.mem_cons_of_mem _ h)
    · obtain rfl | h := List.mem_cons.mp h
      · exact .inr List.mem_cons_self
      · exact (ih h).imp id (List.mem_cons_of_mem _)

theorem mem_values_of_get? {t : Table κ α} {k : κ} {a : α} (h : t.get? k = some a) :
    a ∈ t.values :=
  List.mem_map_of_mem (mem_of_find h)

theorem mem_values_insert {t : Table κ α} {k : κ} {a b : α} (h : b ∈ (t.insert k a).values) :
    b = a ∨ b ∈ t.values := by
  obtain ⟨e, he, rfl⟩ := List.mem_map.mp h
  obtain rfl | he := mem_store he
  · exact .inl rfl
  · exact .inr (List.mem_map_of_mem he)

theorem keys_insert (t : Table κ α) (k : κ) (a : α) :
    (t.insert k a).keys = if k ∈ t.keys then t.keys else t.keys ++ [k] :=
  map_fst_store k a t.entries

/-! ## Other values under the same keys -/

theorem find_map (f : α → β) (k : κ) (entries : List (κ × α)) :
    find k (entries.map fun e => (e.1, f e.2)) = (find k entries).map f := by
  induction entries with
  | nil => rfl
  | cons e rest ih =>
    simp only [List.map_cons, find]
    split
    · rfl
    · exact ih

theorem get?_map (f : α → β) (t : Table κ α) (k : κ) : (t.map f).get? k = (t.get? k).map f :=
  find_map f k t.entries

theorem store_map (f : α → β) (k : κ) (a : α) (entries : List (κ × α)) :
    (store k a entries).map (fun e => (e.1, f e.2)) =
      store k (f a) (entries.map fun e => (e.1, f e.2)) := by
  induction entries with
  | nil => rfl
  | cons e rest ih =>
    simp only [List.map_cons, store]
    split
    · rfl
    · rw [List.map_cons, ih]

theorem map_insert (f : α → β) (t : Table κ α) (k : κ) (a : α) :
    (t.insert k a).map f = (t.map f).insert k (f a) := by
  simp only [map, insert, store_map]

end Table

end Dataflow
