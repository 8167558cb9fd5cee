import Dataflow.Function
import Dataflow.Proofs.NumberOrder

/-!
# Orders of values and records

Values are compared by kind first, and values of one kind by what they hold. Numbers and strings are
compared by total preorders, and so arrays of them are, and arrays of these: `Json.compareValues` is
a total preorder by induction on the nesting. The law that carries the induction is `Chains`: two
comparisons in a row tell the third, unless they point in opposite directions. It speaks of one
value and all others, so in an array the first item and the rest are dealt with one after the other.

A comparator compares by several fields in turn, each in its own direction. The main result,
`comparators_are_preorders`, says that it is a total preorder too, and that it is reversed when all
its directions are.
-/

namespace Dataflow

open Std

/-- A comparison that orders all values, where different ones may tie. -/
structure TotalPreorder {α : Type} (cmp : α → α → Ordering) : Prop where
  swap : ∀ a b, cmp b a = (cmp a b).swap
  self : ∀ a, cmp a a = .eq
  trans : ∀ a b c, cmp a b ≠ .gt → cmp b c ≠ .gt → cmp a c ≠ .gt

/-- From `a` on, two comparisons in a row tell the third, unless they point in opposite
directions. -/
def Chains {α : Type} (cmp : α → α → Ordering) (a : α) : Prop :=
  ∀ b c, cmp a b = .eq ∨ cmp b c = .eq ∨ cmp a b = cmp b c → cmp a c = (cmp a b).then (cmp b c)

section

variable {α : Type} {cmp : α → α → Ordering}

theorem totalPreorder [TransCmp cmp] : TotalPreorder cmp where
  swap := fun _ _ => OrientedCmp.eq_swap
  self := fun _ => ReflCmp.compare_self
  trans := by
    intro a b c hab hbc
    simp only [ne_eq, ← Ordering.isLE_iff_ne_gt] at hab hbc ⊢
    exact TransCmp.isLE_trans hab hbc

theorem chains [TransCmp cmp] (a : α) : Chains cmp a := by
  intro b c h
  cases hab : cmp a b with
  | eq => rw [TransCmp.congr_left hab, Ordering.eq_then]
  | lt =>
    rw [hab] at h
    have hbc : (cmp b c).isLE = true := by
      obtain h | h | h := h
      · exact nomatch h
      · rw [h]; rfl
      · rw [← h]; rfl
    exact TransCmp.lt_of_lt_of_isLE hab hbc
  | gt =>
    rw [hab] at h
    have hbc : (cmp b c).isGE = true := by
      obtain h | h | h := h
      · exact nomatch h
      · rw [h]; rfl
      · rw [← h]; rfl
    exact TransCmp.gt_of_gt_of_isGE hab hbc

/-- Neither of two comparisons is `.gt`, so they do not point in opposite directions. -/
theorem isLE_of_chains {o p q : Ordering} (h : o = .eq ∨ p = .eq ∨ o = p → q = o.then p)
    (ho : o.isLE = true) (hp : p.isLE = true) : q.isLE = true := by
  cases o <;> cases p <;> simp_all

theorem transCmp_of_chains (hswap : ∀ a b, cmp a b = (cmp b a).swap) (h : ∀ a, Chains cmp a) :
    TransCmp cmp where
  eq_swap := hswap _ _
  isLE_trans := fun {a b c} => isLE_of_chains (h a b c)

/-- Comparing in turn keeps the law: where the first comparisons tie, the second ones decide. -/
theorem chains_then {o o' p p' q q' : Ordering} (hq : o = .eq ∨ p = .eq ∨ o = p → q = o.then p)
    (hq' : o' = .eq ∨ p' = .eq ∨ o' = p' → q' = o'.then p')
    (h : o.then o' = .eq ∨ p.then p' = .eq ∨ o.then o' = p.then p') :
    q.then q' = (o.then o').then (p.then p') := by
  cases o <;> cases p <;> cases o' <;> simp_all

end

/-! ## Values -/

namespace Json

/-- Values of different kinds are ordered by kind. -/
theorem compareValues_of_rank_ne {a b : Json} (h : a.rank ≠ b.rank) :
    a.compareValues b = compare a.rank b.rank := by
  cases a <;> cases b <;> first | rfl | exact absurd rfl h

/-- The values of one kind, and how they are compared with one another. -/
structure Kind {α : Type} (of : α → Json) (cmp : α → α → Ordering) : Prop where
  exhausts : ∀ {x b}, (of x).rank = b.rank → ∃ y, b = of y
  compares : ∀ x y, (of x).compareValues (of y) = cmp x y

section

variable {α : Type} {of : α → Json} {cmp : α → α → Ordering} {x : α}

theorem Kind.swap (hk : Kind of cmp) (h : ∀ y, cmp x y = (cmp y x).swap) (b : Json) :
    (of x).compareValues b = (b.compareValues (of x)).swap := by
  by_cases hb : (of x).rank = b.rank
  · obtain ⟨y, rfl⟩ := hk.exhausts hb
    rw [hk.compares, hk.compares, h]
  · rw [compareValues_of_rank_ne hb, compareValues_of_rank_ne (Ne.symm hb)]
    exact OrientedOrd.eq_swap

theorem Kind.chains (hk : Kind of cmp) (h : Chains cmp x) : Chains compareValues (of x) := by
  intro b c hc
  by_cases hb : (of x).rank = b.rank
  · by_cases hbc : b.rank = c.rank
    · obtain ⟨y, rfl⟩ := hk.exhausts hb
      obtain ⟨z, rfl⟩ := hk.exhausts hbc
      simp only [hk.compares] at hc ⊢
      exact h y z hc
    · -- The third value stands to the first as it stands to the second.
      have hac : (of x).compareValues c = b.compareValues c := by
        rw [compareValues_of_rank_ne (hb ▸ hbc), compareValues_of_rank_ne hbc, hb]
      have hne : b.compareValues c ≠ .eq := by
        rw [compareValues_of_rank_ne hbc]
        exact fun he => hbc (Nat.compare_eq_eq.mp he)
      rw [hac]
      obtain h | h | h := hc
      · rw [h, Ordering.eq_then]
      · exact absurd h hne
      · rw [h, Ordering.then_self]
  · -- The kinds of the first two values decide, whatever the third is.
    have hab := compareValues_of_rank_ne hb
    have hne : compare (of x).rank b.rank ≠ .eq := fun he => hb (Nat.compare_eq_eq.mp he)
    have hac : compare (of x).rank c.rank = compare (of x).rank b.rank := by
      by_cases hbc : b.rank = c.rank
      · rw [hbc]
      · rw [hab, compareValues_of_rank_ne hbc] at hc
        rw [Dataflow.chains _ _ _ hc]
        cases ho : compare (of x).rank b.rank with
        | eq => exact absurd ho hne
        | _ => rfl
    have hrank : (of x).rank ≠ c.rank := fun he => hne (hac ▸ Nat.compare_eq_eq.mpr he)
    rw [compareValues_of_rank_ne hrank, hac, hab]
    cases ho : compare (of x).rank b.rank with
    | eq => exact absurd ho hne
    | _ => rfl

end

theorem kind_null : Kind (fun _ : Unit => .null) fun _ _ => .eq where
  exhausts {x b} h := by
    cases b with
    | null => exact ⟨(), rfl⟩
    | _ => exact nomatch h
  compares _ _ := rfl

theorem kind_bool : Kind .bool compare where
  exhausts {x b} h := by
    cases b with
    | bool y => exact ⟨y, rfl⟩
    | _ => exact nomatch h
  compares _ _ := rfl

theorem kind_number : Kind .number Number.compare where
  exhausts {x b} h := by
    cases b with
    | number y => exact ⟨y, rfl⟩
    | _ => exact nomatch h
  compares _ _ := rfl

theorem kind_string : Kind .string compare where
  exhausts {x b} h := by
    cases b with
    | string y => exact ⟨y, rfl⟩
    | _ => exact nomatch h
  compares _ _ := rfl

theorem kind_array : Kind .array compareItems where
  exhausts {x b} h := by
    cases b with
    | array y => exact ⟨y, rfl⟩
    | _ => exact nomatch h
  compares _ _ := rfl

theorem kind_object : Kind .object fun _ _ => .eq where
  exhausts {x b} h := by
    cases b with
    | object y => exact ⟨y, rfl⟩
    | _ => exact nomatch h
  compares _ _ := rfl

mutual

theorem compareValues_swap : (a b : Json) → a.compareValues b = (b.compareValues a).swap
  | .null => kind_null.swap (x := ()) fun _ => rfl
  | .bool _ => kind_bool.swap fun _ => OrientedCmp.eq_swap
  | .number _ => kind_number.swap fun _ => OrientedCmp.eq_swap
  | .string _ => kind_string.swap fun _ => OrientedCmp.eq_swap
  | .array xs => kind_array.swap (compareItems_swap xs)
  | .object _ => kind_object.swap fun _ => rfl

theorem compareItems_swap : (xs ys : List Json) → compareItems xs ys = (compareItems ys xs).swap
  | [], [] => rfl
  | [], _ :: _ => rfl
  | _ :: _, [] => rfl
  | x :: xs, y :: ys => by
    rw [compareItems, compareItems, compareValues_swap x y, compareItems_swap xs ys,
      Ordering.swap_then]

end

mutual

theorem chains_compareValues : (a : Json) → Chains compareValues a
  | .null => kind_null.chains (x := ()) fun _ _ _ => rfl
  | .bool x => kind_bool.chains (chains x)
  | .number x => kind_number.chains (chains x)
  | .string x => kind_string.chains (chains x)
  | .array xs => kind_array.chains (chains_compareItems xs)
  | .object _ => kind_object.chains fun _ _ _ => rfl

theorem chains_compareItems : (xs : List Json) → Chains compareItems xs
  | [], [], [], _ => rfl
  | [], [], _ :: _, _ => rfl
  | [], _ :: _, [], h => by simp [compareItems] at h
  | [], _ :: _, _ :: _, _ => rfl
  | _ :: _, [], [], h => rfl
  | _ :: _, [], _ :: _, h => by simp [compareItems] at h
  | x :: xs, y :: ys, [], h => by
    have hyz : compareItems (y :: ys) [] = .gt := rfl
    have hxz : compareItems (x :: xs) [] = .gt := rfl
    rw [hyz] at h ⊢
    rw [hxz]
    obtain h | h | h := h
    · rw [h, Ordering.eq_then]
    · exact nomatch h
    · rw [h, Ordering.then_self]
  | x :: xs, y :: ys, z :: zs, h =>
    chains_then (chains_compareValues x y z) (chains_compareItems xs ys zs) h

end

instance : TransCmp compareValues := transCmp_of_chains compareValues_swap chains_compareValues

end Json

/-! ## Comparators -/

/-- The other direction. -/
def Direction.flip : Direction → Direction
  | .ascending => .descending
  | .descending => .ascending

theorem Direction.apply_flip (d : Direction) (o : Ordering) :
    d.flip.apply o = (d.apply o).swap := by
  cases d with
  | ascending => rfl
  | descending => exact o.swap_swap.symm

namespace SortKey

/-- The key with the direction turned around. -/
def flip (key : SortKey) : SortKey := { key with direction := key.direction.flip }

theorem compare_flip (key : SortKey) (a b : Json) :
    key.flip.compare a b = (key.compare a b).swap :=
  key.direction.apply_flip _

instance (key : SortKey) : TransCmp key.compare where
  eq_swap := by
    intro a b
    have h := Json.compareValues_swap (a.follow key.segments) (b.follow key.segments)
    unfold SortKey.compare
    cases key.direction with
    | ascending => exact h
    | descending => exact congrArg Ordering.swap h
  isLE_trans := by
    intro a b c hab hbc
    unfold SortKey.compare at hab hbc ⊢
    cases hd : key.direction with
    | ascending =>
      simp only [hd, Direction.apply] at hab hbc ⊢
      exact TransCmp.isLE_trans hab hbc
    | descending =>
      -- Seen the other way around, the two comparisons come in the opposite order.
      simp only [hd, Direction.apply, ← Json.compareValues_swap] at hab hbc ⊢
      exact TransCmp.isLE_trans hbc hab

theorem ofField_of_split {path : String} {segments : List String} (direction : Direction)
    (h : FieldPath.split path = .ok segments) :
    ofField path direction = .ok ⟨path, segments, direction⟩ := by
  unfold ofField
  rw [h]

/-- Where all paths are valid there are keys for them, in their order and in the directions given;
those that are missing are ascending. -/
theorem ofFields_of_valid {paths : List String} (directions : List Direction)
    (valid : ∀ path ∈ paths, ∃ segments, FieldPath.split path = .ok segments) :
    ∃ keys, ofFields paths directions = .ok keys ∧ keys.map SortKey.path = paths ∧
      (∀ i < paths.length,
        (keys.map SortKey.direction)[i]? = some (directions[i]?.getD .ascending)) ∧
      ofFields paths ((keys.map SortKey.direction).map Direction.flip) = .ok (keys.map flip) := by
  induction paths generalizing directions with
  | nil => exact ⟨[], rfl, rfl, fun _ h => absurd h (Nat.not_lt_zero _), rfl⟩
  | cons path rest ih =>
    obtain ⟨segments, hsplit⟩ := valid path List.mem_cons_self
    obtain ⟨keys, hkeys, hpaths, hdirections, hflip⟩ :=
      ih directions.tail fun p hp => valid p (List.mem_cons_of_mem _ hp)
    refine ⟨⟨path, segments, directions.head?.getD .ascending⟩ :: keys, ?_, ?_, ?_, ?_⟩
    · simp only [ofFields, ofField_of_split _ hsplit, hkeys]
      rfl
    · rw [List.map_cons, hpaths]
    · intro i hi
      cases i with
      | zero => simp [List.head?_eq_getElem?]
      | succ i => simpa [List.getElem?_tail] using hdirections i (Nat.lt_of_succ_lt_succ hi)
    · simp only [List.map_cons, ofFields, List.head?_cons, Option.getD_some, List.tail_cons,
        ofField_of_split _ hsplit, hflip]
      rfl

end SortKey

namespace Comparator

theorem compareBy_flip (keys : List SortKey) (a b : Json) :
    compareBy (keys.map SortKey.flip) a b = (compareBy keys a b).swap := by
  induction keys with
  | nil => rfl
  | cons key rest ih => rw [List.map_cons, compareBy, compareBy, SortKey.compare_flip, ih,
      Ordering.swap_then]

theorem transCmp_compareBy (keys : List SortKey) : TransCmp (compareBy keys) := by
  induction keys with
  | nil => exact { eq_swap := rfl, isLE_trans := fun _ _ => rfl }
  | cons key rest ih => exact inferInstanceAs (TransCmp (compareLex key.compare (compareBy rest)))

end Comparator

/-! ## All comparisons -/

/-- Comparing values is a total preorder, where objects tie. Fields with valid paths have a
comparator, which decides by them in their order, each in the direction given for it, or ascending
where none is given. It is a total preorder on records, and with all directions turned around it
gives the opposite answer on all of them. -/
theorem comparators_are_preorders (serial : Nat) (paths : List String)
    (directions : List Direction)
    (valid : ∀ path ∈ paths, ∃ segments, FieldPath.split path = .ok segments) :
    TotalPreorder Json.compareValues ∧
      ∃ c, Comparator.ofFields serial paths directions = .ok c ∧ TotalPreorder c.compare ∧
        c.fields = paths ∧
        (∀ i < paths.length, c.directions[i]? = some (directions[i]?.getD .ascending)) ∧
        ∃ c', Comparator.ofFields serial paths (c.directions.map Direction.flip) = .ok c' ∧
          ∀ a b, c'.compare a b = (c.compare a b).swap := by
  obtain ⟨keys, hkeys, hpaths, hdirections, hflip⟩ := SortKey.ofFields_of_valid directions valid
  have hlaw : TransCmp (Comparator.mk serial keys).compare := Comparator.transCmp_compareBy keys
  refine ⟨totalPreorder, ⟨serial, keys⟩, ?_, totalPreorder, hpaths, hdirections,
    ⟨serial, keys.map SortKey.flip⟩, ?_, Comparator.compareBy_flip keys⟩
  · rw [Comparator.ofFields, hkeys]
    rfl
  · rw [Comparator.ofFields]
    show (SortKey.ofFields paths ((keys.map SortKey.direction).map Direction.flip)).map _ = _
    rw [hflip]
    rfl

/-- A record with a mark and a list of ranks. -/
def ranked (mark : Bool) (ranks : List Json) : Json :=
  .object [("mark", .bool mark), ("ranks", .array ranks)]

/-- Two fields, of which only the first has a direction: marked records come first, and among them
those with the smaller first rank. -/
theorem comparators_are_preorders_ranked :
    ∃ c, Comparator.ofFields 0 ["mark", "ranks[0]"] [.descending] = .ok c ∧
      TotalPreorder c.compare ∧
      c.compare (ranked true [.string "b"]) (ranked false [.string "a"]) = .lt ∧
      c.compare (ranked true [.string "a"]) (ranked true [.string "b", .null]) = .lt := by
  have hmark : FieldPath.split "mark" = .ok ["mark"] := by cbv
  have hranks : FieldPath.split "ranks[0]" = .ok ["ranks", "0"] := by cbv
  have hvalid : ∀ path ∈ ["mark", "ranks[0]"], ∃ segments, FieldPath.split path = .ok segments := by
    intro path hp
    simp only [List.mem_cons, List.not_mem_nil, or_false] at hp
    obtain rfl | rfl := hp
    · exact ⟨_, hmark⟩
    · exact ⟨_, hranks⟩
  obtain ⟨-, c, hc, hlaw, -⟩ := comparators_are_preorders 0 _ [.descending] hvalid
  have hkeys : c.keys =
      [⟨"mark", ["mark"], .descending⟩, ⟨"ranks[0]", ["ranks", "0"], .ascending⟩] := by
    simp only [Comparator.ofFields, SortKey.ofFields, SortKey.ofField, hmark, hranks] at hc
    cases hc
    rfl
  refine ⟨c, hc, hlaw, ?_, ?_⟩
  all_goals
    rw [Comparator.compare, hkeys]
    decide

end Dataflow
