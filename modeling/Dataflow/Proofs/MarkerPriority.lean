import Dataflow.Proofs.FlattenedParameters
import Dataflow.Proofs.ReferenceShapes

/-!
# The first marker where parameters are resolved

What a value refers to is decided by its first marker (`Json.marker?`), and the others could be left
out (`Json.pruned`). But the parameters that a value brings along are looked for beside `$expr`,
whether or not this marker decides. So a value under `$ref` may bring along parameters that do not
belong to it (`Json.strays`).

The main result is `marker_priority`: wherever a value stands in a set of parameters (`Place`),
leaving out its other markers makes no difference, except that its strays are resolved before it.
-/

namespace Dataflow

/-! ## Leaving out markers -/

theorem Marker.key_injective {m m' : Marker} (h : m.key = m'.key) : m = m' := by
  cases m <;> cases m' <;> first | rfl | exact absurd h (by decide)

namespace Json

/-- Whether a key is a marker. -/
def isMarkerKey (key : String) : Bool := Marker.all.any fun m => m.key == key

/-- The value without the markers that do not decide. -/
def pruned (v : Json) : Json :=
  match v, v.marker? with
  | .object members, some m =>
    .object (members.filter fun e => e.1 == m.key || !isMarkerKey e.1)
  | v, _ => v

/-- The parameters that a value brings along although it is no expression. -/
def strays (v : Json) : List (String × Json) :=
  if v.marker? = some .expr then [] else (expressionParams? v).getD []

theorem isMarkerKey_key (m : Marker) : isMarkerKey m.key = true := by
  cases m <;> decide

theorem find_filter (p : String → Bool) (key : String) (members : List (String × Json)) :
    find key (members.filter fun e => p e.1) = if p key then find key members else none := by
  induction members with
  | nil => simp [find]
  | cons e rest ih =>
    obtain ⟨k, v⟩ := e
    by_cases hk : k = key
    · subst hk
      cases hp : p k <;> simp [find, hp, ih]
    · cases hp : p k <;> simp [find, hp, ih, hk]

variable {v : Json} {m : Marker}

theorem pruned_of_no_marker (h : v.marker? = none) : v.pruned = v := by
  unfold pruned
  rw [h]
  split
  · rename_i hsome
    cases hsome
  · rfl

/-- Of the markers only the one that decides is left, and all other members are. -/
theorem get?_pruned (hm : v.marker? = some m) (key : String) :
    v.pruned.get? key = if key == m.key || !isMarkerKey key then v.get? key else none := by
  cases v with
  | object members =>
    unfold pruned
    rw [hm]
    exact find_filter (fun k => k == m.key || !isMarkerKey k) key members
  | _ => cases hm

theorem marker?_congr {w : Json} (h : ∀ m : Marker, w.get? m.key = v.get? m.key) :
    w.marker? = v.marker? := by
  simp only [marker?, has, h]

theorem marker?_pruned (v : Json) : v.pruned.marker? = v.marker? := by
  cases hm : v.marker? with
  | none => rw [pruned_of_no_marker hm, hm]
  | some m =>
    obtain ⟨x, hx⟩ := exists_get?_of_marker? hm
    have hhas (m' : Marker) : v.pruned.has m'.key = decide (m' = m) := by
      rw [has, get?_pruned hm]
      by_cases h : m' = m
      · subst h
        simp [hx]
      · have hkey : m'.key ≠ m.key := fun he => h (Marker.key_injective he)
        simp [hkey, isMarkerKey_key, h]
    simp only [marker?, hhas]
    cases m <;> decide

end Json

/-! ## What resolving looks at -/

namespace Compile

variable {scope : ScopeId} {v w : Json} {m : Marker}

theorem resolveOne_of_marker {x : Json} (hm : v.marker? = some m) (hx : v.get? m.key = some x) :
    resolveOne scope v =
      MonadExcept.ofExcept (Reference.ofMarker v x m) >>= resolveReference scope := by
  unfold resolveOne
  rw [Reference.decode_of_marker hm hx]
  cases Reference.ofMarker v x m <;> rfl

/-- Resolving looks at the marker that decides, at what stands under it, and at its companions. -/
theorem resolveOne_congr (hv : v.marker? = some m) (hw : w.marker? = some m)
    (hkey : w.get? m.key = v.get? m.key)
    (hcompanions : ∀ key ∈ m.companionKeys, w.get? key = v.get? key) :
    resolveOne scope w = resolveOne scope v := by
  obtain ⟨x, hx⟩ := Json.exists_get?_of_marker? hv
  rw [resolveOne_of_marker hv hx, resolveOne_of_marker hw (hkey.trans hx)]
  cases m with
  | ref => rfl
  | subflow => rfl
  | field =>
    have hname := hcompanions "$name" (by decide)
    simp only [Reference.ofMarker, Reference.ofField, hname]
  | compare =>
    have horder := hcompanions "$order" (by decide)
    simp only [Reference.ofMarker, Reference.ofCompare, horder]
  | expr =>
    have hfields := hcompanions "$fields" (by decide)
    have hname := hcompanions "$name" (by decide)
    cases x with
    | string text =>
      simp only [Reference.ofMarker, Reference.ofExpr, hfields, hname]
      -- What the expression brings along is noted in the reference, but nobody asks for it.
      cases Reference.stringList "$fields" (v.get? "$fields") with
      | error e => rfl
      | ok fields =>
        cases Reference.functionName (v.get? "$name") with
        | error e => rfl
        | ok name => rfl
    | _ => rfl

theorem resolveOne_pruned (v : Json) : resolveOne scope v.pruned = resolveOne scope v := by
  cases hm : v.marker? with
  | none => rw [Json.pruned_of_no_marker hm]
  | some m =>
    refine resolveOne_congr hm ((Json.marker?_pruned v).trans hm) ?_ fun key hkey => ?_
    · rw [Json.get?_pruned hm]
      simp
    · have hother : Json.isMarkerKey key = false := by
        revert key
        cases m <;> decide
      rw [Json.get?_pruned hm]
      simp [hother]

theorem resolve_pruned (v : Json) : resolve scope v.pruned = resolve scope v := by
  cases v with
  | object members =>
    have hpruned : ∃ left, (Json.object members).pruned = .object left := by
      unfold Json.pruned
      split
      · exact ⟨_, rfl⟩
      · exact ⟨members, rfl⟩
    obtain ⟨left, hleft⟩ := hpruned
    have hone :
        resolveOne scope (Json.object members).pruned = resolveOne scope (.object members) :=
      resolveOne_pruned _
    rw [hleft] at hone ⊢
    exact hone
  | _ => rfl

end Compile

/-! ## Places -/

theorem Json.find_append (key : String) (xs ys : List (String × Json)) :
    find key (xs ++ ys) = (find key xs).or (find key ys) := by
  induction xs with
  | nil => rfl
  | cons e rest ih =>
    obtain ⟨k, v⟩ := e
    by_cases hk : k = key
    · simp [find, hk]
    · simp [find, hk, ih]

theorem Json.find_eq_none {key : String} {members : List (String × Json)} :
    find key members = none ↔ key ∉ members.map Prod.fst := by
  induction members with
  | nil => simp [find]
  | cons e rest ih =>
    obtain ⟨k, v⟩ := e
    by_cases hk : k = key
    · simp [find, hk]
    · have hk' : ¬ key = k := fun h => hk h.symm
      simp only [find, if_neg hk, ih, List.map_cons, List.mem_cons, hk', false_or]

/-- What stands around the parameters of a value with `$expr`. -/
structure Carrier where
  left : List (String × Json)
  right : List (String × Json)
  carries : "$expr" ∈ (left ++ right).map Prod.fst
  first : "$params" ∉ left.map Prod.fst

namespace Carrier

/-- The value with these parameters. -/
def fill (c : Carrier) (members : List (String × Json)) : Json :=
  .object (c.left ++ ("$params", .object members) :: c.right)

theorem get?_fill (c : Carrier) (members : List (String × Json)) (key : String) :
    (c.fill members).get? key = if key = "$params" then some (.object members)
      else Json.find key (c.left ++ c.right) := by
  show Json.find key (c.left ++ _) = _
  by_cases hkey : key = "$params"
  · subst hkey
    rw [Json.find_append, Json.find_eq_none.mpr c.first]
    rfl
  · have hkey' : ¬ "$params" = key := fun h => hkey h.symm
    rw [if_neg hkey, Json.find_append, Json.find_append, Json.find, if_neg hkey']

theorem expressionParams?_fill (c : Carrier) (members : List (String × Json)) :
    expressionParams? (c.fill members) = some members := by
  obtain ⟨text, htext⟩ : ∃ text, Json.find "$expr" (c.left ++ c.right) = some text := by
    cases h : Json.find "$expr" (c.left ++ c.right) with
    | none => exact absurd c.carries (Json.find_eq_none.mp h)
    | some text => exact ⟨text, rfl⟩
  simp [expressionParams?, get?_fill, htext]

/-- What the value stands for does not depend on the parameters that it brings along. -/
theorem resolve_fill (c : Carrier) (scope : ScopeId) (xs ys : List (String × Json)) :
    Compile.resolve scope (c.fill xs) = Compile.resolve scope (c.fill ys) := by
  have hother (key : String) (hkey : key ≠ "$params") :
      (c.fill xs).get? key = (c.fill ys).get? key := by
    rw [get?_fill, get?_fill, if_neg hkey, if_neg hkey]
  have hmarkers (m : Marker) : (c.fill xs).get? m.key = (c.fill ys).get? m.key :=
    hother m.key (by cases m <;> decide)
  have hsame := Json.marker?_congr hmarkers
  show Compile.resolveOne scope (c.fill xs) = Compile.resolveOne scope (c.fill ys)
  cases hm : (c.fill ys).marker? with
  | none =>
    -- There is a marker, that of the expression if no other.
    have hexpr : (c.fill ys).get? "$expr" = none := Json.marker?_eq_none.mp hm .expr
    have hparams := c.expressionParams?_fill ys
    simp [expressionParams?, hexpr] at hparams
  | some m =>
    refine Compile.resolveOne_congr hm (hsame.trans hm) (hmarkers m) fun key hkey => hother key ?_
    revert key
    cases m <;> decide

end Carrier

/-- Where entries stand in a set of parameters: among the parameters themselves, or among those that
one of them brings along. -/
inductive Place where
  | here (before after : List (String × Json))
  | within (before : List (String × Json)) (name : String) (carrier : Carrier) (inner : Place)
    (after : List (String × Json))

namespace Place

/-- The set of parameters with these entries in the place. -/
def fill : Place → List (String × Json) → List (String × Json)
  | here before after, entries => before ++ entries ++ after
  | within before name carrier inner after, entries =>
    before ++ (name, carrier.fill (inner.fill entries)) :: after

/-- Entries that are resolved in the same way are in every place. -/
theorem fill_congr {scope : ScopeId} {xs ys : List (String × Json)}
    (h : (flatten xs).map (Compile.resolveEntry scope) =
      (flatten ys).map (Compile.resolveEntry scope)) (place : Place) :
    (flatten (place.fill xs)).map (Compile.resolveEntry scope) =
      (flatten (place.fill ys)).map (Compile.resolveEntry scope) := by
  induction place with
  | here before after => simp only [fill, flatten_append, List.map_append, h]
  | within before name carrier inner after ih =>
    -- The value around the place brings along something else, but stands for the same.
    have hvalue : Compile.resolveEntry scope (name, carrier.fill (inner.fill xs)) =
        Compile.resolveEntry scope (name, carrier.fill (inner.fill ys)) := by
      unfold Compile.resolveEntry
      rw [carrier.resolve_fill scope (inner.fill xs) (inner.fill ys)]
    simp only [fill, flatten_append, flatten_cons, carrier.expressionParams?_fill, Option.getD_some,
      List.map_append, List.map_cons, ih, hvalue]

end Place

/-! ## Strays -/

namespace Json

variable {v : Json}

theorem expressionParams?_of_no_expr (h : v.get? Marker.expr.key = none) :
    expressionParams? v = none := by
  have hexpr : v.get? "$expr" = none := h
  simp [expressionParams?, hexpr]

/-- What a value brings along are its strays, or it goes with the expression. -/
theorem strays_append (v : Json) :
    (expressionParams? v).getD [] = v.strays ++ (expressionParams? v.pruned).getD [] := by
  cases hm : v.marker? with
  | none =>
    rw [strays, pruned_of_no_marker hm, expressionParams?_of_no_expr (marker?_eq_none.mp hm .expr)]
    simp
  | some m =>
    by_cases hexpr : m = .expr
    · -- Neither `$expr` nor `$params` is left out, so all of it goes with the expression.
      subst hexpr
      have hkey : v.pruned.get? "$expr" = v.get? "$expr" := by
        rw [get?_pruned hm]
        simp [Marker.key]
      have hparams : v.pruned.get? "$params" = v.get? "$params" := by
        rw [get?_pruned hm]
        simp [show isMarkerKey "$params" = false by decide]
      simp [strays, hm, expressionParams?, hparams, hkey]
    · have hkey : Marker.expr.key ≠ m.key := fun h => hexpr (Marker.key_injective h).symm
      have hnone : v.pruned.get? Marker.expr.key = none := by
        rw [get?_pruned hm, isMarkerKey_key, beq_false_of_ne hkey]
        rfl
      rw [expressionParams?_of_no_expr hnone]
      simp [strays, hm, hexpr]

/-- Where there is `$expr`, it decides, or `$ref` does. -/
theorem marker?_of_expr (h : v.has "$expr" = true) :
    v.marker? = some .ref ∨ v.marker? = some .expr := by
  unfold marker? Marker.all
  rw [List.find?_cons]
  split
  · exact .inl rfl
  · rw [List.find?_cons_of_pos (by exact h)]
    exact .inr rfl

/-- A value has strays exactly if `$ref` decides and there are `$expr` and parameters beside it. -/
theorem strays_ne_nil : v.strays ≠ [] ↔ v.marker? = some .ref ∧ v.has "$expr" = true ∧
    ∃ e rest, v.get? "$params" = some (.object (e :: rest)) := by
  constructor
  · intro h
    unfold strays at h
    split at h
    · exact absurd rfl h
    · rename_i hnot
      cases hparams : expressionParams? v with
      | none =>
        rw [hparams] at h
        exact absurd rfl h
      | some members =>
        rw [hparams] at h
        unfold expressionParams? at hparams
        split at hparams
        · rename_i text _ hexpr hget
          obtain rfl := Option.some.inj hparams
          have hhas : v.has "$expr" = true := by
            rw [has, hexpr]
            rfl
          obtain ⟨e, rest, rfl⟩ := List.exists_cons_of_ne_nil h
          exact ⟨(marker?_of_expr hhas).resolve_right hnot, hhas, e, rest, hget⟩
        · cases hparams
  · rintro ⟨hm, hhas, e, rest, hget⟩
    obtain ⟨text, htext⟩ := Option.isSome_iff_exists.mp hhas
    simp [strays, hm, expressionParams?, htext, hget]

end Json

/-! ## The first marker decides -/

/-- An entry is resolved like the one in which the other markers are left out, with the strays
before it. -/
theorem flatten_strays (scope : ScopeId) (name : String) (v : Json) :
    (flatten [(name, v)]).map (Compile.resolveEntry scope) =
      (flatten (v.strays ++ [(name, v.pruned)])).map (Compile.resolveEntry scope) := by
  have hvalue : Compile.resolveEntry scope (name, v.pruned) =
      Compile.resolveEntry scope (name, v) := by
    unfold Compile.resolveEntry
    rw [Compile.resolve_pruned]
  rw [flatten_append, flatten_cons, flatten_cons, v.strays_append, flatten_append]
  simp only [List.map_append, List.map_cons, flatten_nil, List.map_nil, List.append_assoc, hvalue]

theorem resolve_array_pruned (scope : ScopeId) (left right : List Json) (v : Json) :
    Compile.resolve scope (.array (left ++ v :: right)) =
      Compile.resolve scope (.array (left ++ v.pruned :: right)) := by
  simp only [Compile.resolve, List.mapM_append, List.mapM_cons, Compile.resolveOne_pruned]

/-- Wherever a value stands in a set of parameters, resolving the set does the same, with the same
result, as if the markers of the value that do not decide were left out, and its strays were
parameters of their own before it. It has strays only if `$ref` decides, with `$expr` and `$params`
beside it; and as an item of an array it brings along nothing at all. -/
theorem marker_priority (scope : ScopeId) (params : Parameters) (place : Place) (name : String)
    (v : Json) :
    Compile.resolveInto scope params (place.fill [(name, v)]) =
        Compile.resolveInto scope params (place.fill (v.strays ++ [(name, v.pruned)])) ∧
      (v.strays ≠ [] ↔ v.marker? = some .ref ∧ v.has "$expr" = true ∧
        ∃ e rest, v.get? "$params" = some (.object (e :: rest))) ∧
      ∀ left right, Compile.resolveInto scope params
          (place.fill [(name, .array (left ++ v :: right))]) =
        Compile.resolveInto scope params
          (place.fill [(name, .array (left ++ v.pruned :: right))]) := by
  refine ⟨?_, Json.strays_ne_nil, fun left right => ?_⟩
  · exact Compile.resolveInto_congr (place.fill_congr (flatten_strays scope name v)) params
  · refine Compile.resolveInto_congr (place.fill_congr ?_) params
    have hnone (items : List Json) : expressionParams? (.array items) = none := rfl
    simp only [flatten_cons, flatten_nil, hnone, Option.getD_none, List.nil_append,
      List.map_cons, List.map_nil, Compile.resolveEntry, resolve_array_pruned scope left right v]

/-- A reference to an operator that carries an expression with a parameter, too. -/
def doubleReference : Json := .object [("$ref", .string "a"), ("$expr", .string "b"),
  ("$params", .object [("g", .bool true)])]

/-- A session in which the operator has been declared. -/
def declaredSession : Session := (Session.new none .empty 64).run [.compile ⟨[.named "a"], [], []⟩]

/-- The names of the parameters that a step has given. -/
def Compile.names? : EStateM.Result CompileError Session Parameters → Option (List String)
  | .ok params _ => some params.keys
  | .error .. => none

/-- The parameter of the expression is resolved, although the value refers to an operator. -/
theorem marker_not_always_prior :
    ¬ ∀ (library : Option Library) (transforms : Registry) (depthLimit : Nat)
        (ops : List Operation) (scope : ScopeId) (name : String) (v : Json) (params : Parameters)
        (s' : Session),
      let s := (Session.new library transforms depthLimit).run ops
      1 < (Marker.all.filter fun m => v.has m.key).length →
        Compile.resolveInto scope .empty [(name, v)] s = .ok params s' →
        ∃ t, Compile.resolveInto scope .empty [(name, v.pruned)] s = .ok params t := by
  intro h
  have hboth : Compile.names? (Compile.resolveInto ScopeTree.rootId .empty
      [("p", doubleReference)] declaredSession) = some ["g", "p"] := by
    cbv
  have hpruned : Compile.names? (Compile.resolveInto ScopeTree.rootId .empty
      [("p", doubleReference.pruned)] declaredSession) = some ["p"] := by
    cbv
  cases hr : Compile.resolveInto ScopeTree.rootId .empty [("p", doubleReference)]
      declaredSession with
  | error e s' =>
    rw [hr] at hboth
    cases hboth
  | ok params s' =>
    obtain ⟨t, ht⟩ : ∃ t, Compile.resolveInto ScopeTree.rootId .empty
        [("p", doubleReference.pruned)] declaredSession = .ok params t :=
      h none .empty 64 _ ScopeTree.rootId "p" doubleReference params s' (by decide) hr
    rw [hr] at hboth
    rw [ht] at hpruned
    exact absurd (hboth.symm.trans hpruned) (by decide)

end Dataflow
