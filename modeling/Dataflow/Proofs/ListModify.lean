/-!
# Lemmas on lists that are changed in one place

Nodes and scopes are places of lists, and most requests and writes change one place by
`List.modify`. These are the generic lemmas about it that the library does not have.
-/

namespace List

variable {α β : Type}

/-- An item of the changed list is an item from before, or the one that was changed. -/
theorem mem_of_mem_modify {xs : List α} {i : Nat} {f : α → α} {x : α} (h : x ∈ xs.modify i f) :
    x ∈ xs ∨ ∃ y ∈ xs, x = f y := by
  obtain ⟨j, hj⟩ := mem_iff_getElem?.mp h
  rw [getElem?_modify] at hj
  obtain ⟨y, hy, rfl⟩ := Option.map_eq_some_iff.mp hj
  have hmem : y ∈ xs := mem_of_getElem? hy
  split
  · exact .inr ⟨y, hmem, rfl⟩
  · exact .inl hmem

/-- A change behind the first of two lists is a change of the second. -/
theorem modify_append_of_le {xs ys : List α} {i : Nat} (h : xs.length ≤ i) (f : α → α) :
    (xs ++ ys).modify i f = xs ++ ys.modify (i - xs.length) f := by
  induction xs generalizing i with
  | nil => rfl
  | cons x rest ih =>
    obtain ⟨k, rfl⟩ := Nat.exists_eq_add_of_le' h
    have hk : rest.length ≤ k + rest.length := Nat.le_add_left _ _
    rw [cons_append, length_cons, ← Nat.add_assoc, modify_succ_cons, ih hk, cons_append,
      Nat.add_sub_cancel, Nat.add_assoc, Nat.add_sub_cancel]

/-- Items that are mapped after a change may be changed after they are mapped. -/
theorem map_modify {g : α → β} {f : α → α} {f' : β → β} (h : ∀ x, g (f x) = f' (g x))
    (xs : List α) (i : Nat) : (xs.modify i f).map g = (xs.map g).modify i f' := by
  induction xs generalizing i with
  | nil => cases i <;> rfl
  | cons x rest ih =>
    cases i with
    | zero => simp only [modify_zero_cons, map_cons, h]
    | succ i => simp only [modify_succ_cons, map_cons, ih]

end List
