import Dataflow.Json.Number

/-! # JSON values

Objects keep their members in the order written.  Two values are the *same* when they agree up to
that order and up to the sign of zero; the relation is decided on canonical forms, so it is an
equivalence by construction. -/

namespace Dataflow

/-- A JSON value. -/
inductive Json where
  | null
  | bool (value : Bool)
  | number (value : Number)
  | string (value : String)
  | array (items : List Json)
  | object (members : List (String × Json))

namespace Json

instance : Inhabited Json := ⟨.null⟩

/-! ## Decidable equality -/

mutual

/-- Decides whether two values are written alike. -/
def decEq : (a b : Json) → Decidable (a = b)
  | .null, .null => .isTrue rfl
  | .bool x, .bool y => decidable_of_iff (x = y) (by simp)
  | .number x, .number y => decidable_of_iff (x = y) (by simp)
  | .string x, .string y => decidable_of_iff (x = y) (by simp)
  | .array xs, .array ys =>
    match decEqItems xs ys with
    | .isTrue h => .isTrue (by rw [h])
    | .isFalse h => .isFalse (by simpa using h)
  | .object xs, .object ys =>
    match decEqMembers xs ys with
    | .isTrue h => .isTrue (by rw [h])
    | .isFalse h => .isFalse (by simpa using h)
  | .null, .bool _ | .null, .number _ | .null, .string _
  | .null, .array _ | .null, .object _ => .isFalse (by simp)
  | .bool _, .null | .bool _, .number _ | .bool _, .string _
  | .bool _, .array _ | .bool _, .object _ => .isFalse (by simp)
  | .number _, .null | .number _, .bool _ | .number _, .string _
  | .number _, .array _ | .number _, .object _ => .isFalse (by simp)
  | .string _, .null | .string _, .bool _ | .string _, .number _
  | .string _, .array _ | .string _, .object _ => .isFalse (by simp)
  | .array _, .null | .array _, .bool _ | .array _, .number _
  | .array _, .string _ | .array _, .object _ => .isFalse (by simp)
  | .object _, .null | .object _, .bool _ | .object _, .number _
  | .object _, .string _ | .object _, .array _ => .isFalse (by simp)

/-- Decides whether two lists of values are written alike. -/
def decEqItems : (xs ys : List Json) → Decidable (xs = ys)
  | [], [] => .isTrue rfl
  | x :: xs, y :: ys =>
    match decEq x y, decEqItems xs ys with
    | .isTrue h, .isTrue t => .isTrue (by rw [h, t])
    | .isFalse h, _ => .isFalse (by simp [h])
    | _, .isFalse t => .isFalse (by simp [t])
  | [], _ :: _ => .isFalse (by simp)
  | _ :: _, [] => .isFalse (by simp)

/-- Decides whether two lists of members are written alike. -/
def decEqMembers : (xs ys : List (String × Json)) → Decidable (xs = ys)
  | [], [] => .isTrue rfl
  | (k, x) :: xs, (l, y) :: ys =>
    match decEq x y, decEqMembers xs ys with
    | .isTrue h, .isTrue t => decidable_of_iff (k = l) (by simp [h, t])
    | .isFalse h, _ => .isFalse (by simp [h])
    | _, .isFalse t => .isFalse (by simp [t])
  | [], _ :: _ => .isFalse (by simp)
  | _ :: _, [] => .isFalse (by simp)

end

instance : DecidableEq Json := decEq

/-! ## Reading -/

/-- The value of the first member named `key`. -/
def find (key : String) : List (String × Json) → Option Json
  | [] => none
  | (k, v) :: rest => if k = key then some v else find key rest

/-- The member `key` of an object; other values have no members. -/
def get? (key : String) : Json → Option Json
  | .object members => find key members
  | _ => none

/-- Whether the value is an object with a member `key`. -/
def has (key : String) (v : Json) : Bool := (v.get? key).isSome

/-- The numeric value of a number. -/
def toFloat? : Json → Option Float
  | .number n => some n.toFloat
  | _ => none

/-- The text of a string. -/
def toString? : Json → Option String
  | .string s => some s
  | _ => none

/-! ## Building -/

/-- A computed number; null when it is not finite. -/
def ofFloat (x : Float) : Json :=
  match Number.ofFloat? x with
  | some n => .number n
  | none => .null

/-- An integer; null when it does not fit 64 bits. -/
def ofInt (n : Int) : Json :=
  match Number.ofInt? n with
  | some n => .number n
  | none => .null

/-- A length, a count or an index. -/
def ofNat (n : Nat) : Json := ofInt n

/-- Naturals that fit 64 bits are told apart. -/
theorem ofNat_inj {m n : Nat} (hm : m < UInt64.size) (hn : n < UInt64.size)
    (h : ofNat m = ofNat n) : m = n := by
  have hofNat {k : Nat} (hk : k < 0x10000000000000000) :
      ofNat k = .number (.integer k (by omega)) := by
    rw [ofNat, ofInt, Number.ofInt?, dif_pos (by omega)]
  rw [hofNat hm, hofNat hn, Json.number.injEq, Number.integer.injEq] at h
  exact Int.ofNat_inj.mp h

/-- A value that may be missing; null when it is. -/
def ofOption {α : Type} (f : α → Json) : Option α → Json
  | some a => f a
  | none => .null

/-! ## Sameness -/

mutual

/-- A representative of the values that count as the same: members in key order, zeros without
sign. -/
def canonical : Json → Json
  | .number n => .number n.canonical
  | .array items => .array (canonicalItems items)
  | .object members =>
    .object ((canonicalMembers members).mergeSort fun a b => decide (a.1 ≤ b.1))
  | v => v

/-- Canonical forms of the items of an array. -/
def canonicalItems : List Json → List Json
  | [] => []
  | v :: rest => canonical v :: canonicalItems rest

/-- Canonical forms of the members of an object. -/
def canonicalMembers : List (String × Json) → List (String × Json)
  | [] => []
  | (k, v) :: rest => (k, canonical v) :: canonicalMembers rest

end

/-- Whether two values are the same up to the order of members and the sign of zero. -/
def same (a b : Json) : Bool := decide (a.canonical = b.canonical)

end Json

end Dataflow
