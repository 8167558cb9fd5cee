import Dataflow.Parameter
import Mathlib.Data.List.Lex

/-!
# Where something stands in parameters

A set of parameters has a place for each of its entries, and an array has one for each of its items,
so a position in the parameters is a list of places, one array inside another. `Parameters.Exhausts`
says of a list that it has everything of some sort that stands in the parameters: one entry for each
position, in the order of the positions. Such a list there is for whatever can be told from a
parameter that is no array (`exhausts_occurrences`), and the operators that a set of parameters
refers to are one (`handles_eq_occurrences`).
-/

namespace Dataflow

/-! ## Lists of positions -/

section

variable {α β : Type}

/-- All that is listed for each of several items, at the place of the item, where the first has the
place `i`. -/
def placed (list : α → List (List Nat × β)) (i : Nat) : List α → List (List Nat × β)
  | [] => []
  | x :: rest => (list x).map (fun l => (i :: l.1, l.2)) ++ placed list (i + 1) rest

variable {list : α → List (List Nat × β)} {i : Nat} {xs : List α}

theorem mem_placed {position : List Nat} {b : β} :
    (position, b) ∈ placed list i xs ↔
      ∃ j rest x, position = (i + j) :: rest ∧ xs[j]? = some x ∧ (rest, b) ∈ list x := by
  induction xs generalizing i with
  | nil => simp [placed]
  | cons y ys ih =>
    simp only [placed, List.mem_append, List.mem_map, Prod.mk.injEq, ih]
    constructor
    · rintro (⟨⟨rest, c⟩, hl, rfl, rfl⟩ | ⟨j, rest, x, rfl, hx, hl⟩)
      · exact ⟨0, rest, y, rfl, rfl, hl⟩
      · exact ⟨j + 1, rest, x, by rw [Nat.add_right_comm, Nat.add_assoc], hx, hl⟩
    · rintro ⟨j, rest, x, rfl, hx, hl⟩
      cases j with
      | zero =>
        obtain rfl : y = x := Option.some.inj hx
        exact .inl ⟨(rest, b), hl, rfl, rfl⟩
      | succ j => exact .inr ⟨j, rest, x, by rw [Nat.add_right_comm, Nat.add_assoc], hx, hl⟩

/-- Positions in the order of the items, and in order for each item, are in order. -/
theorem pairwise_placed (h : ∀ x ∈ xs, (list x).Pairwise fun a b => a.1 < b.1) :
    (placed list i xs).Pairwise fun a b => a.1 < b.1 := by
  induction xs generalizing i with
  | nil => exact .nil
  | cons y ys ih =>
    refine List.pairwise_append.mpr ⟨?_, ih fun x hx => h x (List.mem_cons_of_mem _ hx), ?_⟩
    · refine List.pairwise_map.mpr ((h y List.mem_cons_self).imp fun hlt => ?_)
      exact List.cons_lt_cons_self.mpr hlt
    · intro a ha b hb
      obtain ⟨l, -, rfl⟩ := List.mem_map.mp ha
      obtain ⟨j, rest, x, hb, -⟩ := mem_placed.mp (show (b.1, b.2) ∈ _ from hb)
      rw [hb]
      exact List.Lex.rel (by omega)

theorem map_snd_placed :
    (placed list i xs).map Prod.snd = xs.flatMap fun x => (list x).map Prod.snd := by
  induction xs generalizing i with
  | nil => rfl
  | cons y ys ih =>
    rw [placed, List.map_append, List.map_map, ih, List.flatMap_cons]
    rfl

end

/-! ## Parts of a parameter -/

namespace Parameter

/-- Whether the parameter is an array. -/
def isArray : Parameter → Bool
  | .array _ => true
  | _ => false

/-- The part of a parameter at a position. -/
def at? : List Nat → Parameter → Option Parameter
  | [], p => some p
  | i :: rest, .array items => items[i]?.bind (at? rest)
  | _ :: _, _ => none

mutual

/-- The parts of a parameter that are no arrays, from left to right, each with its position. -/
def leaves : Parameter → List (List Nat × Parameter)
  | .array items => itemLeaves 0 items
  | p => [([], p)]

/-- The parts of the items of an array, where the first has the place `i`. -/
def itemLeaves (i : Nat) : List Parameter → List (List Nat × Parameter)
  | [] => []
  | p :: rest => (leaves p).map (fun l => (i :: l.1, l.2)) ++ itemLeaves (i + 1) rest

end

theorem itemLeaves_eq (i : Nat) (items : List Parameter) :
    itemLeaves i items = placed leaves i items := by
  induction items generalizing i with
  | nil => rfl
  | cons p rest ih => rw [itemLeaves, placed, ih]

mutual

/-- What holds of all parameters but arrays, and of an array if it holds of its items, holds of all
parameters. -/
theorem array_induction {P : Parameter → Prop} (leaf : ∀ p, p.isArray = false → P p)
    (array : ∀ items, (∀ p ∈ items, P p) → P (.array items)) : (p : Parameter) → P p
  | .array items => array items (array_induction_items leaf array items)
  | .literal _ => leaf _ rfl
  | .operator _ => leaf _ rfl
  | .accessor _ => leaf _ rfl
  | .comparator _ => leaf _ rfl
  | .subflow _ => leaf _ rfl

theorem array_induction_items {P : Parameter → Prop} (leaf : ∀ p, p.isArray = false → P p)
    (array : ∀ items, (∀ p ∈ items, P p) → P (.array items)) :
    (items : List Parameter) → ∀ p ∈ items, P p
  | [], _, h => nomatch h
  | q :: rest, p, h => by
    obtain h | h := List.mem_cons.mp h
    · rw [h]
      exact array_induction leaf array q
    · exact array_induction_items leaf array rest p h

end

theorem leaves_of_not_array {p : Parameter} (h : p.isArray = false) : p.leaves = [([], p)] := by
  cases p with
  | array items => exact nomatch h
  | _ => rfl

theorem leaves_array (items : List Parameter) : (array items).leaves = placed leaves 0 items := by
  rw [leaves, itemLeaves_eq]

/-- The leaves are the parts that are no arrays. -/
theorem mem_leaves (p : Parameter) : ∀ {position q},
    (position, q) ∈ p.leaves ↔ p.at? position = some q ∧ q.isArray = false := by
  induction p using array_induction with
  | leaf p hp =>
    intro position q
    rw [leaves_of_not_array hp, List.mem_singleton, Prod.mk.injEq]
    constructor
    · rintro ⟨rfl, rfl⟩
      exact ⟨rfl, hp⟩
    · rintro ⟨hq, -⟩
      cases position with
      | nil => exact ⟨rfl, (Option.some.inj hq).symm⟩
      | cons i rest =>
        cases p with
        | array items => exact nomatch hp
        | _ => exact nomatch hq
  | array items ih =>
    intro position q
    rw [leaves_array, mem_placed]
    constructor
    · rintro ⟨j, rest, p, rfl, hj, hl⟩
      rw [Nat.zero_add, at?, hj]
      exact (ih p (List.mem_of_getElem? hj)).mp hl
    · rintro ⟨hq, harray⟩
      cases position with
      | nil =>
        obtain rfl := Option.some.inj hq
        exact nomatch harray
      | cons j rest =>
        obtain ⟨p, hj, hq⟩ := Option.bind_eq_some_iff.mp hq
        exact ⟨j, rest, p, by rw [Nat.zero_add], hj,
          (ih p (List.mem_of_getElem? hj)).mpr ⟨hq, harray⟩⟩

theorem pairwise_leaves (p : Parameter) : p.leaves.Pairwise fun a b => a.1 < b.1 := by
  induction p using array_induction with
  | leaf p hp =>
    rw [leaves_of_not_array hp]
    exact List.pairwise_singleton _ _
  | array items ih =>
    rw [leaves_array]
    exact pairwise_placed ih

/-- The node that an operator refers to. -/
def operator? : Parameter → Option Handle
  | .operator handle => some handle
  | _ => none

/-- A nested specification. -/
def subflow? : Parameter → Option Subflow
  | .subflow s => some s
  | _ => none

/-- What is picked from the leaves of a parameter, each with its position. -/
def picked {α : Type} (pick : Parameter → Option α) (p : Parameter) : List (List Nat × α) :=
  p.leaves.filterMap fun l => (pick l.2).map (l.1, ·)

section

variable {α : Type} {pick : Parameter → Option α}

theorem mem_picked (hpick : ∀ items, pick (.array items) = none) {p : Parameter}
    {position : List Nat} {a : α} :
    (position, a) ∈ p.picked pick ↔ ∃ q, p.at? position = some q ∧ pick q = some a := by
  have hleaf : ∀ {q}, pick q = some a → q.isArray = false := by
    intro q hq
    cases q with
    | array items => rw [hpick] at hq; exact nomatch hq
    | _ => rfl
  simp only [picked, List.mem_filterMap, Option.map_eq_some_iff, Prod.mk.injEq]
  constructor
  · rintro ⟨⟨pos, q⟩, hl, b, hq, rfl, rfl⟩
    exact ⟨q, (p.mem_leaves.mp hl).1, hq⟩
  · rintro ⟨q, hat, hq⟩
    exact ⟨(position, q), p.mem_leaves.mpr ⟨hat, hleaf hq⟩, a, hq, rfl, rfl⟩

theorem pairwise_picked (p : Parameter) : (p.picked pick).Pairwise fun a b => a.1 < b.1 := by
  refine List.pairwise_filterMap.mpr (p.pairwise_leaves.imp ?_)
  intro l l' hlt a ha b hb
  obtain ⟨_, -, rfl⟩ := Option.map_eq_some_iff.mp ha
  obtain ⟨_, -, rfl⟩ := Option.map_eq_some_iff.mp hb
  exact hlt

theorem picked_array (items : List Parameter) :
    (array items).picked pick = placed (picked pick) 0 items := by
  have hitems : ∀ i, (placed leaves i items).filterMap (fun l => (pick l.2).map (l.1, ·)) =
      placed (picked pick) i items := by
    induction items with
    | nil => exact fun _ => rfl
    | cons p rest ih =>
      intro i
      simp only [placed, picked, List.filterMap_append, ih, List.filterMap_map, List.map_filterMap,
        Function.comp_def, Option.map_map]
  rw [picked, leaves_array, hitems]

end

/-- The operators of a parameter are those among its leaves. -/
theorem handles_eq (p : Parameter) : p.handles = (p.picked operator?).map Prod.snd := by
  induction p using array_induction with
  | leaf p hp =>
    rw [picked, leaves_of_not_array hp]
    cases p with
    | array items => exact nomatch hp
    | _ => rfl
  | array items ih =>
    rw [handles, itemHandles_eq, picked_array, map_snd_placed]
    exact List.flatMap_congr ih

end Parameter

/-! ## Parts of a set of parameters -/

namespace Parameters

variable {α : Type}

/-- The list has everything that can be picked from the parameters, also inside of arrays, each with
its position and the name of its entry: the first place of a position is that of the entry, the
others lead through arrays. It is in the order of the positions, so nothing is in it twice. -/
structure Exhausts (params : Parameters) (pick : Parameter → Option α)
    (found : List (List Nat × String × α)) : Prop where
  mem : ∀ position name a, (position, name, a) ∈ found ↔
    ∃ i rest p q, position = i :: rest ∧ params.entries[i]? = some (name, p) ∧
      p.at? rest = some q ∧ pick q = some a
  ordered : found.Pairwise fun a b => a.1 < b.1

/-- What can be picked from the parameters. -/
def occurrences (pick : Parameter → Option α) (params : Parameters) :
    List (List Nat × String × α) :=
  placed (fun e => (e.2.picked pick).map fun l => (l.1, e.1, l.2)) 0 params.entries

theorem exhausts_occurrences (params : Parameters) {pick : Parameter → Option α}
    (hpick : ∀ items, pick (.array items) = none) :
    params.Exhausts pick (params.occurrences pick) where
  mem := by
    intro position name a
    rw [occurrences, mem_placed]
    constructor
    · rintro ⟨i, rest, ⟨name', p⟩, rfl, hi, hl⟩
      obtain ⟨⟨rest', a'⟩, hl', he⟩ := List.mem_map.mp hl
      cases he
      obtain ⟨q, hat, hq⟩ := (Parameter.mem_picked hpick).mp hl'
      exact ⟨i, rest', p, q, by rw [Nat.zero_add], hi, hat, hq⟩
    · rintro ⟨i, rest, p, q, rfl, hi, hat, hq⟩
      have hl : (rest, a) ∈ p.picked pick := (Parameter.mem_picked hpick).mpr ⟨q, hat, hq⟩
      exact ⟨i, rest, (name, p), by rw [Nat.zero_add], hi, List.mem_map_of_mem hl⟩
  ordered := pairwise_placed fun e _ => List.pairwise_map.mpr e.2.pairwise_picked

/-- There is one such list only. -/
theorem Exhausts.unique {params : Parameters} {pick : Parameter → Option α}
    {found found' : List (List Nat × String × α)} (h : params.Exhausts pick found)
    (h' : params.Exhausts pick found') : found = found' := by
  have hmem : ∀ a, a ∈ found ↔ a ∈ found' := fun (position, name, a) =>
    (h.mem position name a).trans (h'.mem position name a).symm
  have hperm : found.Perm found' := by
    refine (List.perm_ext_iff_of_nodup ?_ ?_).mpr hmem
    · exact h.ordered.imp fun hlt he => absurd (he ▸ hlt) (List.lt_irrefl _)
    · exact h'.ordered.imp fun hlt he => absurd (he ▸ hlt) (List.lt_irrefl _)
  refine hperm.eq_of_pairwise (fun a b _ _ hab hba => ?_) h.ordered h'.ordered
  exact absurd hba (List.lt_asymm hab)

theorem map_snd_occurrences (pick : Parameter → Option α) (params : Parameters) :
    (params.occurrences pick).map Prod.snd =
      params.entries.flatMap fun e => ((e.2.picked pick).map Prod.snd).map (e.1, ·) := by
  rw [occurrences, map_snd_placed]
  refine List.flatMap_congr fun e _ => ?_
  rw [List.map_map, List.map_map]
  rfl

/-- The operators that a set of parameters refers to, from the first to the last. -/
theorem handles_eq_occurrences (params : Parameters) :
    params.handles = (params.occurrences Parameter.operator?).map Prod.snd := by
  rw [map_snd_occurrences, handles]
  exact List.flatMap_congr fun e _ => by rw [Parameter.handles_eq]

end Parameters

end Dataflow
