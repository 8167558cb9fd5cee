import Dataflow.Function
import Mathlib.Data.List.Chain

/-!
# Writing field paths

A segment of a path can be written after a dot, in a bracket with quotes or in a bare bracket, and
in each place a backslash takes away the meaning of the characters that have one there. `render`
writes any segments in any of these styles. Reading a path gives back the segments it was written
from (`split_render`), with one exception that is excluded: an empty segment after a dot cannot be
seen before a bracket.

So every place in a value has a path, in fact one for each choice of styles, and the field of such a
path is the value at the place.
-/

namespace Dataflow

namespace FieldPath

/-! ## Writing -/

/-- The quotes around a segment. -/
inductive Quote where
  | double
  | single
deriving DecidableEq

/-- The character of a quote. -/
def Quote.char : Quote → Char
  | .double => '"'
  | .single => '\''

/-- How a segment is written. -/
inductive SegmentStyle where
  /-- After a dot, or at the start of the path. -/
  | dotted
  | quoted (quote : Quote)
  /-- In a bracket without quotes. -/
  | bare
deriving DecidableEq

/-- Puts a backslash before each special character. -/
def escape (special : List Char) : List Char → List Char
  | [] => []
  | c :: rest => if c ∈ special then '\\' :: c :: escape special rest else c :: escape special rest

/-- The text of a segment in a bare bracket. A quote counts only at the start. -/
def escapeBare : List Char → List Char
  | [] => []
  | c :: rest => escape ['\\', ']', '"', '\''] [c] ++ escape ['\\', ']'] rest

/-- A segment as it is written, without the dot before it. -/
def SegmentStyle.write (segment : List Char) : SegmentStyle → List Char
  | .dotted => escape ['\\', '.', '[', ']'] segment
  | .quoted q => '[' :: q.char :: (escape ['\\', q.char] segment ++ [q.char, ']'])
  | .bare => '[' :: (escapeBare segment ++ [']'])

/-- Segments as they are written behind others. -/
def renderRest : List (SegmentStyle × String) → List Char
  | [] => []
  | (.dotted, segment) :: rest =>
    '.' :: (SegmentStyle.dotted.write segment.toList ++ renderRest rest)
  | (style, segment) :: rest => style.write segment.toList ++ renderRest rest

/-- The path of several segments, each in a style of its own. -/
def render : List (SegmentStyle × String) → String
  | [] => ""
  | (style, segment) :: rest =>
    String.ofList (style.write segment.toList ++ renderRest rest)

/-- No empty segment is written after a dot and followed by a bracket. -/
def Separable (parts : List (SegmentStyle × String)) : Prop :=
  parts.IsChain fun part next => part.1 = .dotted → part.2 = "" → next.1 = .dotted

/-! ## Reading one segment -/

theorem dotted_escape (read segment rest : List Char) :
    dotted read (escape ['\\', '.', '[', ']'] segment ++ rest) = dotted (read ++ segment) rest := by
  induction segment generalizing read with
  | nil => simp [escape]
  | cons c cs ih =>
    by_cases hc : c ∈ ['\\', '.', '[', ']']
    · rw [escape, if_pos hc]
      simp [dotted, ih]
    · rw [escape, if_neg hc]
      simp only [List.mem_cons, List.not_mem_nil, or_false, not_or] at hc
      obtain ⟨h₁, h₂, h₃, h₄⟩ := hc
      simp [dotted, h₁, ih]

/-- A character that is neither a backslash nor the quote is read as it is, whatever follows. -/
theorem quotedIn_cons {quote c : Char} (hc : c ≠ '\\') (hq : c ≠ quote) (read rest : List Char) :
    quotedIn quote read (c :: rest) = quotedIn quote (read ++ [c]) rest := by
  by_cases hrest : ∃ cs, rest = ']' :: cs
  · obtain ⟨cs, rfl⟩ := hrest
    rw [quotedIn.eq_4 _ _ _ _ (fun h => absurd h hc) fun _ _ h => absurd h hc, if_neg hq]
  · rw [quotedIn.eq_5 _ _ _ _ (fun h => absurd h hc) (fun _ _ h => absurd h hc)
      fun cs h => hrest ⟨cs, h⟩, if_neg hq]

theorem quotedIn_escape (q : Quote) (read segment rest : List Char) :
    quotedIn q.char read (escape ['\\', q.char] segment ++ rest) =
      quotedIn q.char (read ++ segment) rest := by
  induction segment generalizing read with
  | nil => simp [escape]
  | cons c cs ih =>
    by_cases hc : c ∈ ['\\', q.char]
    · rw [escape, if_pos hc]
      simp [quotedIn, ih]
    · rw [escape, if_neg hc]
      simp only [List.mem_cons, List.not_mem_nil, or_false, not_or] at hc
      rw [List.cons_append, quotedIn_cons hc.1 hc.2, ih, List.append_assoc, List.singleton_append]

theorem bare_escape (read segment rest : List Char) :
    bare read (escape ['\\', ']'] segment ++ rest) = bare (read ++ segment) rest := by
  induction segment generalizing read with
  | nil => simp [escape]
  | cons c cs ih =>
    by_cases hc : c ∈ ['\\', ']']
    · rw [escape, if_pos hc]
      simp [bare, ih]
    · rw [escape, if_neg hc]
      simp only [List.mem_cons, List.not_mem_nil, or_false, not_or] at hc
      obtain ⟨h₁, h₂⟩ := hc
      simp [bare, h₁, ih]

theorem opened_quoted (q : Quote) (segment rest : List Char) :
    opened (q.char :: (escape ['\\', q.char] segment ++ [q.char, ']']) ++ rest) =
      cons segment (closed rest) := by
  have hstart : ∀ cs, opened (q.char :: cs) = quotedIn q.char [] cs := by
    intro cs
    cases q <;> simp [opened, Quote.char]
  have hquote : q.char ≠ '\\' := by cases q <;> decide
  have hend : ∀ read, quotedIn q.char read (q.char :: ']' :: rest) = cons read (closed rest) := by
    intro read
    rw [quotedIn.eq_4 _ _ _ _ (fun h => absurd h hquote) fun _ _ h => absurd h hquote, if_pos rfl]
  rw [List.cons_append, List.append_assoc, hstart, quotedIn_escape]
  exact hend segment

theorem opened_bare (segment rest : List Char) :
    opened (escapeBare segment ++ [']'] ++ rest) = cons segment (closed rest) := by
  cases segment with
  | nil => simp [escapeBare, opened]
  | cons c cs =>
    have hend : ∀ read, bare read (']' :: rest) = cons read (closed rest) := by
      intro read
      simp [bare]
    have hfirst : opened (escape ['\\', ']', '"', '\''] [c] ++
        (escape ['\\', ']'] cs ++ (']' :: rest))) =
          bare [c] (escape ['\\', ']'] cs ++ (']' :: rest)) := by
      by_cases hc : c ∈ ['\\', ']', '"', '\'']
      · rw [escape, if_pos hc]
        simp [escape, opened]
      · rw [escape, if_neg hc]
        simp only [List.mem_cons, List.not_mem_nil, or_false, not_or] at hc
        obtain ⟨h₁, h₂, h₃, h₄⟩ := hc
        simp [escape, opened, h₁]
    rw [escapeBare, List.append_assoc, List.append_assoc]
    exact (hfirst.trans (bare_escape _ _ _)).trans (hend _)

/-! ## Reading several segments -/

@[simp] theorem cons_ok (segment : String) (rest : List String) :
    cons segment.toList (.ok rest) = .ok (segment :: rest) := by
  rw [cons, String.ofList_toList]
  rfl

/-- A bracket is read from its opening character on, whatever its style. -/
theorem write_eq_bracket {style : SegmentStyle} (h : style ≠ .dotted) (segment rest : List Char) :
    ∃ cs, style.write segment ++ rest = '[' :: cs ∧ opened cs = cons segment (closed rest) := by
  cases style with
  | dotted => exact absurd rfl h
  | quoted q => exact ⟨_, rfl, opened_quoted q segment rest⟩
  | bare => exact ⟨_, rfl, opened_bare segment rest⟩

theorem renderRest_cons {style : SegmentStyle} (h : style ≠ .dotted) (segment : String)
    (rest : List (SegmentStyle × String)) :
    renderRest ((style, segment) :: rest) = style.write segment.toList ++ renderRest rest := by
  cases style with
  | dotted => exact absurd rfl h
  | _ => rfl

/-- The segments behind a closed bracket, and behind a dotted segment that can be told from what
follows. -/
theorem read_renderRest (parts : List (SegmentStyle × String)) :
    (Separable parts → closed (renderRest parts) = .ok (parts.map Prod.snd)) ∧
      ∀ segment : String, Separable ((.dotted, segment) :: parts) →
        dotted segment.toList (renderRest parts) = .ok (segment :: parts.map Prod.snd) := by
  induction parts with
  | nil => exact ⟨fun _ => rfl, fun segment _ => by simp [renderRest, dotted]⟩
  | cons part rest ih =>
    obtain ⟨style, text⟩ := part
    by_cases hstyle : style = .dotted
    · subst hstyle
      -- A dot starts a new segment, which goes on to the next dot or bracket.
      have hread : ∀ h : Separable ((.dotted, text) :: rest),
          dotted [] (SegmentStyle.dotted.write text.toList ++ renderRest rest) =
            .ok (text :: rest.map Prod.snd) := by
        intro h
        rw [SegmentStyle.write, dotted_escape]
        exact ih.2 text h
      refine ⟨fun h => ?_, fun segment h => ?_⟩
      · simp only [renderRest, closed, hread h, List.map_cons]
      · have hrest : Separable ((.dotted, text) :: rest) := h.tail
        simp only [renderRest, dotted, hread hrest, cons_ok, List.map_cons]
    · obtain ⟨cs, hwrite, hopened⟩ := write_eq_bracket hstyle text.toList (renderRest rest)
      have hread : Separable ((style, text) :: rest) →
          opened cs = .ok (text :: rest.map Prod.snd) := by
        intro h
        rw [hopened, ih.1 h.tail, cons_ok]
      rw [renderRest_cons hstyle, hwrite]
      refine ⟨fun h => ?_, fun segment h => ?_⟩
      · simp only [closed, hread h, List.map_cons]
      · -- The segment before the bracket is not empty, so it is seen.
        have hne : segment.toList.isEmpty = false := by
          refine Bool.eq_false_iff.mpr fun he => hstyle ?_
          have hempty : segment = "" := by
            rw [← String.ofList_toList (s := segment), List.isEmpty_iff.mp he]
          exact (List.isChain_cons_cons.mp h).1 rfl hempty
        simp only [dotted, hne, hread h.tail, Bool.false_eq_true, if_false, cons_ok, List.map_cons]

/-- Reading a path gives back the segments that it has been written from. -/
theorem split_of_separable {parts : List (SegmentStyle × String)} (nonempty : parts ≠ [])
    (separable : Separable parts) : split (render parts) = .ok (parts.map Prod.snd) := by
  cases parts with
  | nil => exact absurd rfl nonempty
  | cons part rest =>
    obtain ⟨style, text⟩ := part
    rw [split, render, String.toList_ofList]
    by_cases hstyle : style = .dotted
    · subst hstyle
      rw [SegmentStyle.write, dotted_escape]
      exact (read_renderRest rest).2 text separable
    · obtain ⟨cs, hwrite, hopened⟩ := write_eq_bracket hstyle text.toList (renderRest rest)
      rw [hwrite]
      simp only [dotted, List.isEmpty_nil, if_true, hopened,
        (read_renderRest rest).1 separable.tail, cons_ok, List.map_cons]

end FieldPath

/-! ## Places in a value -/

namespace Text

theorem wordDigits_append (n : Nat) (xs ys : List Char) :
    wordDigits n (xs ++ ys) = wordDigits n xs >>= fun m => wordDigits m ys := by
  induction xs generalizing n with
  | nil => rfl
  | cons c cs ih =>
    simp only [List.cons_append, wordDigits]
    split
    · split
      · exact ih _
      · rfl
    · rfl

theorem wordDigits_digitChar {n d : Nat} (hd : d < 10) (hn : 10 * n + d < 0x10000000000000000) :
    wordDigits n [Nat.digitChar d] = .ok (10 * n + d) := by
  have hdigit : (Nat.digitChar d).isDigit = true := by simp [Nat.isDigit_digitChar, hd]
  have hval : (Nat.digitChar d).toNat - '0'.toNat = d := Nat.toNat_digitChar_sub_48_of_lt_ten hd
  simp only [wordDigits, hdigit, hval, if_true, if_pos hn]

/-- A word that is written in decimal is read back. -/
theorem wordDigits_toDigits (n : Nat) (hn : n < 0x10000000000000000) :
    wordDigits 0 (Nat.toDigits 10 n) = .ok n := by
  induction n using Nat.strongRecOn with
  | ind n ih =>
    by_cases hlt : n < 10
    · rw [Nat.toDigits_of_lt_base hlt]
      simpa using wordDigits_digitChar hlt (n := 0) (by omega)
    · -- All digits but the last are those of a smaller number.
      rw [Nat.toDigits_of_base_le (by decide) (by omega), wordDigits_append,
        ih (n / 10) (by omega) (by omega)]
      have hlast := wordDigits_digitChar (n := n / 10) (d := n % 10) (by omega) (by omega)
      rw [Nat.div_add_mod] at hlast
      exact hlast

theorem word?_toString (i : UInt64) : word? (toString i.toNat).toList = some i.toNat := by
  have hread := wordDigits_toDigits i.toNat i.toNat_lt
  have hdigit : ∀ c ∈ Nat.toDigits 10 i.toNat, c.isDigit = true := fun c =>
    Nat.isDigit_of_mem_toDigits (by decide) (by decide)
  rw [Nat.toString_eq_ofList_toDigits, String.toList_ofList, word?]
  -- A text of digits is not empty and has no sign.
  cases hcs : Nat.toDigits 10 i.toNat with
  | nil => exact absurd hcs Nat.toDigits_ne_nil
  | cons c cs =>
    rw [hcs] at hread hdigit
    have hc : c ≠ '+' := by
      rintro rfl
      exact absurd (hdigit '+' List.mem_cons_self) (by decide)
    have hword : readWord (c :: cs) = wordDigits 0 (c :: cs) := by
      simp [readWord, hc]
    rw [hword, hread]
    rfl

end Text

namespace Json

/-- One step to a place in a value. -/
inductive Step where
  /-- Into the member of an object. -/
  | member (key : String)
  /-- Into the item of an array. -/
  | item (index : UInt64)

/-- A step as a segment of a path: the key, or the index in decimal. -/
def Step.text : Step → String
  | .member key => key
  | .item index => toString index.toNat

/-- The value at a place, if there is such a place. -/
def at? : List Step → Json → Option Json
  | [], v => some v
  | .member key :: rest, .object members => (find key members).bind (at? rest)
  | .item index :: rest, .array items => items[index.toNat]?.bind (at? rest)
  | _ :: _, _ => none

/-- Following the segments of a place leads to the value there. -/
theorem follow_of_at? (steps : List Step) {datum v : Json} (h : datum.at? steps = some v) :
    datum.follow (steps.map Step.text) = v := by
  induction steps generalizing datum with
  | nil => exact Option.some.inj h
  | cons step rest ih =>
    have hstep : ∃ next, datum.step? step.text = some next ∧ next.at? rest = some v := by
      cases step with
      | member key =>
        cases datum with
        | object members => exact Option.bind_eq_some_iff.mp h
        | _ => exact nomatch h
      | item index =>
        cases datum with
        | array items =>
          obtain ⟨next, hnext, hrest⟩ := Option.bind_eq_some_iff.mp h
          refine ⟨next, ?_, hrest⟩
          rw [Step.text, step?, Text.word?_toString]
          exact hnext
        | _ => exact nomatch h
    obtain ⟨next, hnext, hrest⟩ := hstep
    rw [List.map_cons, follow, hnext]
    exact ih hrest

end Json

/-! ## All paths -/

namespace FieldPath

/-- Reading a path gives back the segments that it has been written from, in whatever styles. So at
every place in a value, the field of each of its paths is the value that stands there. -/
theorem split_render (parts : List (SegmentStyle × String)) (nonempty : parts ≠ [])
    (separable : Separable parts) :
    split (render parts) = .ok (parts.map Prod.snd) ∧
      ∀ (serial : Nat) (name : Option String) (steps : List Json.Step),
        steps.map Json.Step.text = parts.map Prod.snd →
          ∃ f, Accessor.ofField serial (render parts) name = .ok f ∧
            ∀ datum v, datum.at? steps = some v → f.call datum = v := by
  have hsplit := split_of_separable nonempty separable
  refine ⟨hsplit, fun serial name steps hsteps => ?_⟩
  refine ⟨⟨serial, some (name.getD (render parts)), [render parts], .path (parts.map Prod.snd)⟩,
    ?_, fun datum v hv => ?_⟩
  · rw [Accessor.ofField, hsplit]
  · rw [Accessor.call, ← hsteps]
    exact Json.follow_of_at? steps hv

/-- A segment of each style, with the characters that have a meaning in it: the path is
`a\.b["\"\\"][\'\]].1`, and it leads to the second item of an array. -/
theorem split_render_mixed :
    let parts : List (SegmentStyle × String) := [(.dotted, "a.b"), (.quoted .double, "\"\\"),
      (.bare, "']"), (.dotted, "1")]
    let datum : Json := .object [("a.b", .object [("\"\\", .object [("']",
      .array [.null, .bool true])])])]
    render parts = "a\\.b[\"\\\"\\\\\"][\\'\\]].1" ∧
      split (render parts) = .ok ["a.b", "\"\\", "']", "1"] ∧
      ∃ f, Accessor.ofField 0 (render parts) none = .ok f ∧ f.call datum = .bool true := by
  intro parts datum
  have hsep : Separable parts := by
    simp [Separable, parts]
  obtain ⟨hsplit, hfield⟩ := split_render parts (List.cons_ne_nil _ _) hsep
  obtain ⟨f, hf, hcall⟩ := hfield 0 none [.member "a.b", .member "\"\\", .member "']", .item 1]
    (by decide)
  refine ⟨by decide, hsplit, f, hf, hcall datum _ ?_⟩
  decide

end FieldPath

end Dataflow
