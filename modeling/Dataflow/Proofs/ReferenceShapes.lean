import Dataflow.Reference

/-!
# Which values are references

An object is a reference if it has a marker, and of several markers the first decides
(`Json.marker?`). What may stand under a marker is its `Marker.Shape`, and what may stand beside it
are its `Marker.Companions`. A nested specification may be wrong in its own ways; apart from these,
decoding accepts the shapes and nothing else, with one exception: null under `$compare` counts as an
empty list. `Accepts` says of one part of decoding which shape it accepts, and where it finds fault
with all others. The main result is `decode_by_shape`.
-/

namespace Dataflow

/-! ## Markers -/

/-- A key that makes an object a reference. -/
inductive Marker where
  | ref
  | expr
  | field
  | compare
  | subflow
deriving DecidableEq

/-- How a marker is written. -/
def Marker.key : Marker → String
  | .ref => "$ref"
  | .expr => "$expr"
  | .field => "$field"
  | .compare => "$compare"
  | .subflow => "$subflow"

/-- All markers; each decides before those that come after it. -/
def Marker.all : List Marker := [.ref, .expr, .field, .compare, .subflow]

/-- The marker that decides what a value refers to. -/
def Json.marker? (v : Json) : Option Marker := Marker.all.find? fun m => v.has m.key

theorem Marker.mem_all (m : Marker) : m ∈ Marker.all := by
  cases m <;> decide

theorem Json.marker?_eq_none {v : Json} :
    v.marker? = none ↔ ∀ m : Marker, v.get? m.key = none := by
  simp [marker?, List.find?_eq_none, Marker.mem_all, Json.has]

theorem Json.exists_get?_of_marker? {v : Json} {m : Marker} (h : v.marker? = some m) :
    ∃ x, v.get? m.key = some x := by
  have hhas : v.has m.key = true := List.find?_some (p := fun m : Marker => v.has m.key) h
  exact Option.isSome_iff_exists.mp hhas

/-- Only objects have markers. -/
theorem Json.get?_of_not_object {v : Json} (h : ∀ members, v ≠ .object members) (key : String) :
    v.get? key = none := by
  cases v with
  | object members => exact absurd rfl (h members)
  | _ => rfl

/-! ## Shapes -/

namespace Json

/-- The value is a string. -/
def IsText (v : Json) : Prop := ∃ s, v = .string s

/-- The value is a string or an array of strings, and stands for these texts. -/
inductive Lists : Json → List String → Prop where
  | text (s : String) : Lists (.string s) [s]
  | array (texts : List String) : Lists (.array (texts.map .string)) texts

/-- The value is a string or an array of strings. -/
def IsTexts (v : Json) : Prop := ∃ texts, v.Lists texts

/-- The value names a direction or several. -/
def IsOrder (v : Json) : Prop :=
  ∃ names, v.Lists names ∧ ∀ name ∈ names, name = "ascending" ∨ name = "descending"

theorem Lists.unique {v : Json} {xs ys : List String} (h : v.Lists xs) (h' : v.Lists ys) :
    xs = ys := by
  cases h with
  | text s =>
    cases h'
    rfl
  | array =>
    generalize hv : Json.array (xs.map .string) = w at h'
    cases h' with
    | text s => cases hv
    | array => exact (List.map_inj_right fun _ _ => Json.string.inj).mp (Json.array.inj hv)

end Json

/-- The value is missing or null, or it has the shape. -/
def Optionally (shape : Json → Prop) (v : Option Json) : Prop :=
  ∀ w, v = some w → w = .null ∨ shape w

namespace Marker

/-- What may stand under a marker. -/
def Shape : Marker → Json → Prop
  | .ref, x => x.IsText ∨ ∃ n fits, x = .number (.integer n fits)
  | .expr, x => x.IsText
  | .field, x => x.IsText
  | .compare, x => x.IsTexts
  | .subflow, x => ∃ members, x = .object members

/-- The keys that are read beside a marker. -/
def companionKeys : Marker → List String
  | .expr => ["$fields", "$name"]
  | .field => ["$name"]
  | .compare => ["$order"]
  | _ => []

/-- What may stand beside a marker. -/
def Companions : Marker → Json → Prop
  | .expr, v => Optionally Json.IsTexts (v.get? "$fields") ∧ Optionally Json.IsText (v.get? "$name")
  | .field, v => Optionally Json.IsText (v.get? "$name")
  | .compare, v => Optionally Json.IsOrder (v.get? "$order")
  | _, _ => True

end Marker

/-! ## Parts of decoding -/

/-- The computation accepts exactly this shape, and gives a result of this kind. It finds fault with
everything else, under one of the keys. -/
def Accepts {α : Type} (x : Except CompileError α) (keys : List String) (shape : Prop)
    (result : α → Prop) : Prop :=
  (∃ a, x = .ok a ∧ result a) ∧ shape ∨
    (∃ fault, x = .error (.malformedReference fault) ∧ fault.marker ∈ keys) ∧ ¬ shape

section

variable {α β : Type} {x : Except CompileError α} {f : α → Except CompileError β}
  {keys keys' : List String} {shape shape' : Prop} {result : α → Prop} {result' : β → Prop}

theorem Accepts.of_iff (hok : (∃ a, x = .ok a) ↔ shape)
    (hfault : ∀ e, x = .error e → ∃ fault, e = .malformedReference fault ∧ fault.marker ∈ keys) :
    Accepts x keys shape fun a => x = .ok a := by
  cases x with
  | ok a => exact .inl ⟨⟨a, rfl, rfl⟩, hok.mp ⟨a, rfl⟩⟩
  | error e =>
    obtain ⟨fault, rfl, hmem⟩ := hfault e rfl
    refine .inr ⟨⟨fault, rfl, hmem⟩, fun h => ?_⟩
    obtain ⟨a, ha⟩ := hok.mpr h
    cases ha

theorem accepts_error (fault : Malformed) (hkey : fault.marker ∈ keys) (h : ¬ shape) :
    Accepts (.error (.malformedReference fault) : Except CompileError α) keys shape result :=
  .inr ⟨⟨fault, rfl, hkey⟩, h⟩

/-- The fault may be found under more keys. -/
theorem Accepts.mono (hx : Accepts x keys shape result) (h : keys ⊆ keys') :
    Accepts x keys' shape result :=
  hx.imp id fun ⟨⟨fault, he, hmem⟩, hshape⟩ => ⟨⟨fault, he, h hmem⟩, hshape⟩

/-- Two parts one after the other accept what both accept. -/
theorem accepts_bind (hx : Accepts x keys shape result)
    (hf : ∀ a, result a → Accepts (f a) keys' shape' result') :
    Accepts (x >>= f) (keys ++ keys') (shape ∧ shape') result' := by
  obtain ⟨⟨a, rfl, ha⟩, hshape⟩ | ⟨⟨fault, rfl, hmem⟩, hshape⟩ := hx
  · show Accepts (f a) _ _ _
    refine (hf a ha).imp (fun ⟨hb, hshape'⟩ => ⟨hb, hshape, hshape'⟩)
      fun ⟨⟨fault, he, hmem⟩, h⟩ => ?_
    exact ⟨⟨fault, he, List.mem_append_right _ hmem⟩, fun hboth => h hboth.2⟩
  · exact .inr ⟨⟨fault, rfl, List.mem_append_left _ hmem⟩, fun hboth => hshape hboth.1⟩

/-- What is done with the result in the end does not matter. -/
theorem accepts_bind_pure {g : α → β} (hx : Accepts x keys shape result)
    (hg : ∀ a, result' (g a)) : Accepts (x >>= fun a => pure (g a)) keys shape result' := by
  obtain ⟨⟨a, rfl, -⟩, hshape⟩ | ⟨⟨fault, rfl, hmem⟩, hshape⟩ := hx
  · exact .inl ⟨⟨g a, rfl, hg a⟩, hshape⟩
  · exact .inr ⟨⟨fault, rfl, hmem⟩, hshape⟩

theorem accepts_map {g : α → β} (hx : Accepts x keys shape fun a => result' (g a)) :
    Accepts (x.map g) keys shape result' := by
  obtain ⟨⟨a, rfl, ha⟩, hshape⟩ | ⟨⟨fault, rfl, hmem⟩, hshape⟩ := hx
  · exact .inl ⟨⟨g a, rfl, ha⟩, hshape⟩
  · exact .inr ⟨⟨fault, rfl, hmem⟩, hshape⟩

end

namespace Reference

/-! ### Lists of strings -/

theorem strings_eq_ok {marker : String} {items : List Json} {texts : List String} :
    strings marker items = .ok texts ↔ items = texts.map .string := by
  induction items generalizing texts with
  | nil => cases texts <;> simp [strings]
  | cons v rest ih =>
    cases v with
    | string s =>
      show (strings marker rest).map (s :: ·) = .ok texts ↔ _
      cases texts with
      | nil => cases h : strings marker rest <;> simp [Except.map]
      | cons t more =>
        rw [List.map_cons, List.cons.injEq, Json.string.injEq, ← ih]
        cases h : strings marker rest <;> simp [Except.map]
    | _ => cases texts <;> simp [strings]

theorem strings_eq_error {marker : String} {items : List Json} {e : CompileError}
    (h : strings marker items = .error e) : e = .malformedReference (.listItem marker) := by
  induction items generalizing e with
  | nil => cases h
  | cons v rest ih =>
    cases v with
    | string s =>
      cases hrest : strings marker rest with
      | error e' =>
        rw [strings, hrest] at h
        cases h
        exact ih hrest
      | ok texts =>
        rw [strings, hrest] at h
        cases h
    | _ => exact (Except.error.inj h).symm

/-- A list of strings is read from nothing, from null, or from a value that lists them. -/
theorem stringList_eq_ok {marker : String} {v : Option Json} {texts : List String} :
    stringList marker v = .ok texts ↔
      (v = none ∨ v = some .null) ∧ texts = [] ∨ ∃ w, v = some w ∧ w.Lists texts := by
  constructor
  · intro h
    unfold stringList at h
    split at h
    · exact .inl ⟨.inl rfl, (Except.ok.inj h).symm⟩
    · exact .inl ⟨.inr rfl, (Except.ok.inj h).symm⟩
    · cases h
      exact .inr ⟨_, rfl, .text _⟩
    · rw [strings_eq_ok] at h
      subst h
      exact .inr ⟨_, rfl, .array _⟩
    · cases h
  · rintro (⟨rfl | rfl, rfl⟩ | ⟨w, rfl, h⟩)
    · rfl
    · rfl
    · cases h with
      | text s => rfl
      | array => exact strings_eq_ok.mpr rfl

theorem stringList_eq_error {marker : String} {v : Option Json} {e : CompileError}
    (h : stringList marker v = .error e) :
    ∃ fault, e = .malformedReference fault ∧ fault.marker ∈ [marker] := by
  unfold stringList at h
  split at h
  · cases h
  · cases h
  · cases h
  · exact ⟨_, strings_eq_error h, List.mem_singleton.mpr rfl⟩
  · exact ⟨_, (Except.error.inj h).symm, List.mem_singleton.mpr rfl⟩

theorem accepts_stringList (marker : String) (v : Option Json) :
    Accepts (stringList marker v) [marker] (Optionally Json.IsTexts v)
      fun texts => stringList marker v = .ok texts := by
  refine .of_iff ?_ fun e h => stringList_eq_error h
  simp only [stringList_eq_ok]
  constructor
  · rintro ⟨texts, ⟨rfl | rfl, -⟩ | ⟨w, rfl, hw⟩⟩ x hx
    · cases hx
    · exact .inl (Option.some.inj hx).symm
    · exact .inr ⟨texts, Option.some.inj hx ▸ hw⟩
  · intro h
    cases v with
    | none => exact ⟨[], .inl ⟨.inl rfl, rfl⟩⟩
    | some w =>
      obtain rfl | ⟨texts, hw⟩ := h w rfl
      · exact ⟨[], .inl ⟨.inr rfl, rfl⟩⟩
      · exact ⟨texts, .inr ⟨w, rfl, hw⟩⟩

/-! ### Companions -/

theorem accepts_functionName (v : Option Json) :
    Accepts (functionName v) ["$name"] (Optionally Json.IsText v) fun _ => True := by
  unfold functionName
  split
  · exact .inl ⟨⟨_, rfl, trivial⟩, fun w h => nomatch h⟩
  · exact .inl ⟨⟨_, rfl, trivial⟩, fun w h => .inl (Option.some.inj h).symm⟩
  · exact .inl ⟨⟨_, rfl, trivial⟩, fun w h => .inr ⟨_, (Option.some.inj h).symm⟩⟩
  · rename_i w hnull htext
    refine accepts_error .functionName (List.mem_singleton.mpr rfl) fun h => ?_
    obtain rfl | ⟨s, rfl⟩ := h w rfl
    · exact hnull rfl
    · exact htext s rfl

theorem ofText?_eq_none {s : String} :
    Direction.ofText? s = none ↔ ¬ (s = "ascending" ∨ s = "descending") := by
  unfold Direction.ofText?
  split <;> simp_all

theorem accepts_directions (names : List String) :
    Accepts (directions names) ["$order"]
      (∀ name ∈ names, name = "ascending" ∨ name = "descending") fun _ => True := by
  induction names with
  | nil => exact .inl ⟨⟨[], rfl, trivial⟩, fun _ h => nomatch h⟩
  | cons s rest ih =>
    rw [List.forall_mem_cons]
    unfold directions
    cases hs : Direction.ofText? s with
    | none =>
      rw [ofText?_eq_none] at hs
      exact accepts_error (.unknownOrder s) (List.mem_singleton.mpr rfl) fun h => hs h.1
    | some d =>
      have hknown : s = "ascending" ∨ s = "descending" := by
        refine Classical.byContradiction fun h => ?_
        rw [ofText?_eq_none.mpr h] at hs
        cases hs
      rw [and_iff_right hknown]
      exact accepts_map ih

/-- A value that lists names is an order if all of them are names of directions. -/
theorem optionally_isOrder {v : Option Json} {names : List String}
    (h : stringList "$order" v = .ok names) :
    Optionally Json.IsOrder v ↔ ∀ name ∈ names, name = "ascending" ∨ name = "descending" := by
  obtain ⟨hnone, rfl⟩ | ⟨w, rfl, hw⟩ := stringList_eq_ok.mp h
  · refine iff_of_true (fun w hw => .inl ?_) fun _ h => nomatch h
    obtain rfl | rfl := hnone
    · cases hw
    · exact (Option.some.inj hw).symm
  · constructor
    · intro horder
      obtain rfl | ⟨others, hothers, hknown⟩ := horder w rfl
      · cases hw
      · exact hw.unique hothers ▸ hknown
    · rintro hknown x hx
      exact .inr ⟨names, Option.some.inj hx ▸ hw, hknown⟩

theorem accepts_order (v : Option Json) :
    Accepts (stringList "$order" v >>= directions) ["$order"] (Optionally Json.IsOrder v)
      fun _ => True := by
  obtain ⟨⟨names, hnames, -⟩, -⟩ | ⟨⟨fault, hfault, hmem⟩, htexts⟩ :=
    accepts_stringList "$order" v
  · rw [hnames, optionally_isOrder hnames]
    exact accepts_directions names
  · rw [hfault]
    refine accepts_error fault hmem fun horder => htexts fun w hw => ?_
    exact (horder w hw).imp id fun ⟨names, hnames, _⟩ => ⟨names, hnames⟩

/-! ### References -/

theorem accepts_ofRef (x : Json) :
    Accepts (ofRef x) ["$ref"] (Marker.ref.Shape x) fun r => r.marker = "$ref" := by
  have hid : (EntryId.ofJson? x).isSome ↔ Marker.ref.Shape x := by
    unfold EntryId.ofJson?
    split
    · exact iff_of_true rfl (.inl ⟨_, rfl⟩)
    · exact iff_of_true rfl (.inr ⟨_, _, rfl⟩)
    · rename_i htext hinteger
      refine iff_of_false (fun h => nomatch h) ?_
      rintro (⟨s, rfl⟩ | ⟨n, fits, rfl⟩)
      · exact htext s rfl
      · exact hinteger n fits rfl
  unfold ofRef
  cases h : EntryId.ofJson? x with
  | some id => exact .inl ⟨⟨_, rfl, rfl⟩, hid.mp (by rw [h]; rfl)⟩
  | none =>
    refine accepts_error .reference (List.mem_singleton.mpr rfl) fun hshape => ?_
    rw [← hid, h] at hshape
    cases hshape

/-- Text under a marker, with companions beside it that are looked at only then. -/
theorem accepts_text {x : Json} {keys : List String} {companions : Prop} {kind : String}
    (fault : Malformed) {f : String → Except CompileError Reference}
    (hf : ∀ s, Accepts (f s) keys companions fun r => r.marker = kind) :
    Accepts (match x with | .string s => f s | _ => .error (.malformedReference fault))
      (fault.marker :: keys) (x.IsText ∧ companions) fun r => r.marker = kind := by
  split
  · rename_i s
    have htext : (Json.string s).IsText := ⟨s, rfl⟩
    rw [and_iff_right htext]
    exact (hf s).mono (List.subset_cons_self _ _)
  · rename_i htext
    refine accepts_error fault List.mem_cons_self fun h => ?_
    obtain ⟨⟨s, rfl⟩, -⟩ := h
    exact htext s rfl

theorem accepts_ofExpr (v x : Json) :
    Accepts (ofExpr v x) ("$expr" :: Marker.expr.companionKeys)
      (Marker.expr.Shape x ∧ Marker.expr.Companions v) fun r => r.marker = "$expr" :=
  accepts_text .expression fun _ => accepts_bind (accepts_stringList "$fields" _)
    fun _ _ => accepts_bind_pure (accepts_functionName _) fun _ => rfl

theorem accepts_ofField (v x : Json) :
    Accepts (ofField v x) ("$field" :: Marker.field.companionKeys)
      (Marker.field.Shape x ∧ Marker.field.Companions v) fun r => r.marker = "$field" :=
  accepts_text .field fun _ =>
    accepts_bind_pure (accepts_functionName _) fun _ => rfl

/-- Null under the marker is accepted as well. -/
theorem accepts_ofCompare (v x : Json) :
    Accepts (ofCompare v x) ("$compare" :: Marker.compare.companionKeys)
      (Optionally Json.IsTexts (some x) ∧ Marker.compare.Companions v)
      fun r => r.marker = "$compare" := by
  have horder := accepts_order (v.get? "$order")
  have hrest : ∀ fields : List String, Accepts
      (stringList "$order" (v.get? "$order") >>= fun orders => directions orders >>=
        fun ds => pure (Reference.compare fields ds))
      ["$order"] (Marker.compare.Companions v) fun r => r.marker = "$compare" := by
    intro fields
    rw [← bind_assoc]
    exact accepts_bind_pure horder fun _ => rfl
  exact accepts_bind (accepts_stringList "$compare" (some x)) fun fields _ => hrest fields

/-- An object under the marker is a nested specification, or it cannot be read as one. -/
theorem ofSubflow_of_object {x : Json} (h : ∃ members, x = .object members) :
    (∃ r, ofSubflow x = .ok r ∧ r.marker = "$subflow") ∨
      Spec.decode? x = none ∧ ofSubflow x = .error .decode := by
  obtain ⟨members, rfl⟩ := h
  simp only [ofSubflow]
  cases Spec.decode? (.object members) with
  | some spec => exact .inl ⟨.subflow spec, rfl, rfl⟩
  | none => exact .inr ⟨rfl, rfl⟩

theorem ofSubflow_of_not_object {x : Json} (h : ¬ ∃ members, x = .object members) :
    ofSubflow x = .error (.malformedReference .subflow) := by
  cases x with
  | object members => exact absurd ⟨members, rfl⟩ h
  | _ => rfl

/-! ## The first marker decides -/

/-- The reference of a value in which this marker decides. -/
def ofMarker (v x : Json) : Marker → Except CompileError Reference
  | .ref => ofRef x
  | .expr => ofExpr v x
  | .field => ofField v x
  | .compare => ofCompare v x
  | .subflow => ofSubflow x

theorem decode_of_marker {v x : Json} {m : Marker} (hm : v.marker? = some m)
    (hx : v.get? m.key = some x) : decode v = (ofMarker v x m).map some := by
  have hnone : ∀ {key : String}, v.has key = false → v.get? key = none := by simp [Json.has]
  unfold decode
  simp only [Json.marker?, Marker.all, List.find?, Marker.key] at hm
  -- The markers are looked for one after the other, here and there.
  split at hm
  · cases hm
    rw [show v.get? "$ref" = some x from hx]
    rfl
  · rename_i h₁
    rw [hnone h₁]
    split at hm
    · cases hm
      rw [show v.get? "$expr" = some x from hx]
      rfl
    · rename_i h₂
      rw [hnone h₂]
      split at hm
      · cases hm
        rw [show v.get? "$field" = some x from hx]
        rfl
      · rename_i h₃
        rw [hnone h₃]
        split at hm
        · cases hm
          rw [show v.get? "$compare" = some x from hx]
          rfl
        · rename_i h₄
          rw [hnone h₄]
          split at hm
          · cases hm
            rw [show v.get? "$subflow" = some x from hx]
            rfl
          · cases hm

theorem decode_of_no_marker {v : Json} (h : v.marker? = none) : decode v = .ok none := by
  have hnone := Json.marker?_eq_none.mp h
  have h₁ : v.get? "$ref" = none := hnone .ref
  have h₂ : v.get? "$expr" = none := hnone .expr
  have h₃ : v.get? "$field" = none := hnone .field
  have h₄ : v.get? "$compare" = none := hnone .compare
  have h₅ : v.get? "$subflow" = none := hnone .subflow
  simp only [decode, h₁, h₂, h₃, h₄, h₅]

/-- Apart from nested specifications, null under `$compare` is all that is accepted besides the
shapes. -/
theorem accepts_ofMarker {v x : Json} {m : Marker} (hm : m ≠ .subflow) :
    Accepts (ofMarker v x m) (m.key :: m.companionKeys)
      ((m.Shape x ∨ m = .compare ∧ x = .null) ∧ m.Companions v) fun r => r.marker = m.key := by
  have hother : ∀ {m : Marker}, m ≠ .compare →
      ((m.Shape x ∨ m = .compare ∧ x = .null) ∧ m.Companions v ↔ m.Shape x ∧ m.Companions v) := by
    intro m h
    simp [h]
  cases m with
  | ref =>
    have hnone : Marker.ref.Companions v ↔ True := Iff.rfl
    rw [hother (by decide), hnone, and_true]
    exact accepts_ofRef x
  | expr =>
    rw [hother (by decide)]
    exact accepts_ofExpr v x
  | field =>
    rw [hother (by decide)]
    exact accepts_ofField v x
  | compare =>
    have hnull : Optionally Json.IsTexts (some x) ↔
        Marker.compare.Shape x ∨ Marker.compare = .compare ∧ x = .null := by
      simp [Optionally, Marker.Shape, or_comm]
    rw [← hnull]
    exact accepts_ofCompare v x
  | subflow => exact absurd rfl hm

/-- Nothing but `$compare` may have null under it. -/
theorem eq_compare_of_null {m : Marker} (h : m.Shape .null ∨ m = .compare ∧ Json.null = .null) :
    m = .compare := by
  refine h.elim (fun hshape => ?_) And.left
  cases m with
  | ref => obtain ⟨_, h⟩ | ⟨_, _, h⟩ := hshape <;> cases h
  | compare => rfl
  | _ =>
    obtain ⟨_, h⟩ := hshape
    cases h

/-- Null under `$compare` is read as an empty list. -/
theorem ofCompare_null {v : Json} {r : Reference} (h : ofCompare v .null = .ok r) :
    ∃ ds, r = .compare [] ds := by
  change (stringList "$order" (v.get? "$order") >>= fun names => directions names >>= fun ds =>
    pure (Reference.compare [] ds)) = .ok r at h
  cases ho : stringList "$order" (v.get? "$order") with
  | error e =>
    rw [ho] at h
    cases h
  | ok names =>
    rw [ho] at h
    change (directions names >>= fun ds => pure (Reference.compare [] ds)) = .ok r at h
    cases hd : directions names with
    | error e =>
      rw [hd] at h
      cases h
    | ok ds =>
      rw [hd] at h
      exact ⟨ds, (Except.ok.inj h).symm⟩

/-- An object under `$subflow` is all that is asked for, but it may not be a specification. -/
theorem ofMarker_subflow (v x : Json) :
    (Marker.subflow.Shape x →
      (∃ r, ofMarker v x .subflow = .ok r ∧ r.marker = Marker.subflow.key) ∨
        Spec.decode? x = none ∧ ofMarker v x .subflow = .error .decode) ∧
    (¬ Marker.subflow.Shape x →
      ofMarker v x .subflow = .error (.malformedReference .subflow)) :=
  ⟨ofSubflow_of_object, ofSubflow_of_not_object⟩

/-! ## Decoding -/

/-- A value is a literal exactly if it is no object or has no marker. -/
theorem decode_eq_none (v : Json) :
    decode v = .ok none ↔
      (∀ members, v ≠ .object members) ∨ ∀ m : Marker, v.get? m.key = none := by
  cases hm : v.marker? with
  | none => exact iff_of_true (decode_of_no_marker hm) (.inr (Json.marker?_eq_none.mp hm))
  | some m =>
    obtain ⟨x, hx⟩ := Json.exists_get?_of_marker? hm
    refine iff_of_false ?_ ?_
    · rw [decode_of_marker hm hx]
      cases ofMarker v x m <;> simp [Except.map]
    · -- What stands under the marker is a member of an object.
      rintro (h | h)
      · rw [Json.get?_of_not_object h] at hx
        cases hx
      · rw [h] at hx
        cases hx

/-- What stands under a marker and beside it decides how the value is read. -/
theorem ofMarker_by_shape (v x : Json) (m : Marker) :
    ((m.Shape x ∨ m = .compare ∧ x = .null) ∧ m.Companions v →
      (∃ r, ofMarker v x m = .ok r ∧ r.marker = m.key ∧ (x = .null → ∃ ds, r = .compare [] ds)) ∨
        m = .subflow ∧ Spec.decode? x = none ∧ ofMarker v x m = .error .decode) ∧
    (¬ ((m.Shape x ∨ m = .compare ∧ x = .null) ∧ m.Companions v) →
      ∃ fault, ofMarker v x m = .error (.malformedReference fault) ∧
        fault.marker ∈ m.key :: m.companionKeys) := by
  by_cases hsub : m = .subflow
  · subst hsub
    obtain ⟨hobject, hother⟩ := ofMarker_subflow v x
    refine ⟨fun h => ?_, fun h => ⟨.subflow, hother fun hs => h ⟨.inl hs, trivial⟩,
      List.mem_cons_self⟩⟩
    have hshape : Marker.subflow.Shape x := h.1.resolve_right (by simp)
    refine (hobject hshape).imp (fun ⟨r, hr, hkind⟩ => ⟨r, hr, hkind, ?_⟩) fun h => ⟨rfl, h⟩
    -- Null is no object.
    rintro rfl
    obtain ⟨_, h⟩ := hshape
    cases h
  · obtain ⟨⟨r, hr, hkind⟩, hshape⟩ | ⟨hfault, hshape⟩ :=
      accepts_ofMarker (v := v) (x := x) hsub
    · refine ⟨fun _ => .inl ⟨r, hr, hkind, ?_⟩, fun h => absurd hshape h⟩
      rintro rfl
      obtain rfl := eq_compare_of_null hshape.1
      exact ofCompare_null hr
    · exact ⟨fun h => absurd h hshape, fun _ => hfault⟩

/-- A value is a literal exactly if it is no object or has no marker. Otherwise let `m` be the
marker that decides and `x` what stands under it. If they have the shapes that `m` asks for, or null
stands under `$compare`, the value is a reference of the kind of `m`, or a nested specification that
cannot be read. If not, it is malformed, and the fault is found under `m` or beside it. -/
theorem decode_by_shape (v : Json) :
    (decode v = .ok none ↔
      (∀ members, v ≠ .object members) ∨ ∀ m : Marker, v.get? m.key = none) ∧
    ∀ m x, v.marker? = some m → v.get? m.key = some x →
      ((m.Shape x ∨ m = .compare ∧ x = .null) ∧ m.Companions v →
        (∃ r, decode v = .ok (some r) ∧ r.marker = m.key ∧
          (x = .null → ∃ ds, r = .compare [] ds)) ∨
        m = .subflow ∧ Spec.decode? x = none ∧ decode v = .error .decode) ∧
      (¬ ((m.Shape x ∨ m = .compare ∧ x = .null) ∧ m.Companions v) →
        ∃ fault, decode v = .error (.malformedReference fault) ∧
          fault.marker ∈ m.key :: m.companionKeys) := by
  refine ⟨decode_eq_none v, fun m x hm hx => ?_⟩
  obtain ⟨haccepted, hrefused⟩ := ofMarker_by_shape v x m
  rw [decode_of_marker hm hx]
  refine ⟨fun h => ?_, fun h => ?_⟩
  · obtain ⟨r, hr, hkind⟩ | ⟨hsub, hnone, he⟩ := haccepted h
    · exact .inl ⟨r, by rw [hr]; rfl, hkind⟩
    · exact .inr ⟨hsub, hnone, by rw [he]; rfl⟩
  · obtain ⟨fault, he, hmem⟩ := hrefused h
    exact ⟨fault, by rw [he]; rfl, hmem⟩

/-- An expression with a name that is no string: the fault is found at the name. -/
theorem decode_by_shape_name :
    let v : Json := .object [("$field", .null), ("$expr", .string "a"), ("$name", .bool true)]
    v.marker? = some .expr ∧ ¬ Marker.expr.Companions v ∧
      ∃ fault, decode v = .error (.malformedReference fault) ∧
        fault.marker ∈ ["$expr", "$fields", "$name"] := by
  intro v
  have hm : v.marker? = some .expr := by decide
  have hname : ¬ Marker.expr.Companions v := by
    rintro ⟨-, hname⟩
    obtain h | ⟨s, h⟩ := hname (.bool true) rfl <;> cases h
  refine ⟨hm, hname, ?_⟩
  exact ((decode_by_shape v).2 .expr (.string "a") hm rfl).2 fun h => hname h.2

/-- Null under `$compare` is neither a string nor an array of strings, and yet it is accepted. -/
theorem decode_not_by_documented_shape :
    ¬ ∀ (v : Json) (m : Marker) (x : Json), v.marker? = some m → v.get? m.key = some x →
      ¬ (m.Shape x ∧ m.Companions v) → ∃ fault, decode v = .error (.malformedReference fault) := by
  intro h
  have hnot : ¬ Marker.compare.Shape .null := by
    rintro ⟨texts, h⟩
    cases h
  obtain ⟨fault, hfault⟩ := h (.object [("$compare", .null)]) .compare .null (by decide) rfl
    fun hboth => hnot hboth.1
  cases hfault

end Reference

end Dataflow
