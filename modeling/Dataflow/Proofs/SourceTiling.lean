import Dataflow.Proofs.TokenRules
import Mathlib.Data.List.Forall2

/-!
# Lexemes tile their source

`Tiles offset cs lexemes` says that the characters `cs`, which stand at an offset of the source,
are blanks and the texts of the lexemes, each the longest match at its place. A text splits into
lexemes exactly if they tile it (`scanFrom_eq_ok_iff`), and where no token starts, the text before
is tiled (`tiles_of_scanFrom_error`). The longest match at a place is also the longest one if the
source ends after it or goes on with a blank (`Longest.before_blank`), so the texts of the lexemes
can be put together again with any blanks between them.
-/

namespace Dataflow

namespace Lexeme

/-- The characters from an offset on are blanks and the texts of the lexemes, in this order. -/
inductive Tiles : Nat → List Char → List Lexeme → Prop where
  | nil {offset : Nat} : Tiles offset [] []
  | blank {offset : Nat} {c : Char} {cs : List Char} {lexemes : List Lexeme}
      (hc : isBlank c = true) (h : Tiles (offset + c.utf8Size) cs lexemes) :
      Tiles offset (c :: cs) lexemes
  | token {offset : Nat} {text rest : List Char} {t : Token} {lexemes : List Lexeme}
      (ht : Longest text rest t) (h : Tiles (offset + byteLength text) rest lexemes) :
      Tiles offset (text ++ rest) (⟨t, offset, offset + byteLength text⟩ :: lexemes)

/-! ## Bytes -/

@[simp] theorem byteLength_nil : byteLength [] = 0 := rfl

@[simp] theorem byteLength_cons (c : Char) (cs : List Char) :
    byteLength (c :: cs) = c.utf8Size + byteLength cs := rfl

@[simp] theorem byteLength_append (xs ys : List Char) :
    byteLength (xs ++ ys) = byteLength xs + byteLength ys := by
  induction xs with
  | nil => simp
  | cons c xs ih => simp [ih, Nat.add_assoc]

theorem byteLength_pos {cs : List Char} (h : cs ≠ []) : 0 < byteLength cs := by
  obtain ⟨c, cs, rfl⟩ := List.exists_cons_of_ne_nil h
  exact Nat.add_pos_left c.utf8Size_pos _

/-- The bytes of a text are those of its characters. -/
theorem utf8ByteSize_ofList (cs : List Char) : (String.ofList cs).utf8ByteSize = byteLength cs := by
  induction cs with
  | nil => simp
  | cons c cs ih =>
    rw [String.ofList_cons, String.utf8ByteSize_append, String.utf8ByteSize_singleton, ih,
      byteLength_cons]

theorem byteLength_toList (source : String) :
    byteLength source.toList = source.utf8ByteSize := by
  rw [← utf8ByteSize_ofList, String.ofList_toList]

/-! ## Blanks -/

theorem isBlank_iff {c : Char} :
    isBlank c = true ↔ c = ' ' ∨ c = '\t' ∨ c = '\r' ∨ c = '\n' := by
  simp [isBlank, or_assoc]

theorem isBlank_of_nameChar {c : Char} (h : isNameChar c = true) : isBlank c = false := by
  rw [← Bool.not_eq_true, isBlank_iff]
  rintro (rfl | rfl | rfl | rfl) <;> exact nomatch h

theorem isBlank_of_digit {c : Char} (h : c.isDigit = true) : isBlank c = false :=
  isBlank_of_nameChar (by rw [isNameChar, h, Bool.or_true])

theorem isBlank_of_exponent {exponent : List Char} (h : Exponent exponent) :
    ∀ d ∈ exponent, isBlank d = false := by
  cases h with
  | missing => exact fun d hd => nomatch hd
  | digits he hsign hds =>
    intro d hd
    obtain rfl | hd := List.mem_cons.mp hd
    · obtain rfl | rfl := he <;> rfl
    obtain hd | hd := List.mem_append.mp hd
    · obtain rfl | rfl | rfl := hsign
      · exact nomatch hd
      · obtain rfl := List.mem_singleton.mp hd
        rfl
      · obtain rfl := List.mem_singleton.mp hd
        rfl
    · exact isBlank_of_digit (hds.2 d hd)

theorem isBlank_of_fraction {fraction : List Char} (h : Fraction fraction) :
    ∀ d ∈ fraction, isBlank d = false := by
  cases h with
  | missing => exact fun d hd => nomatch hd
  | digits hds =>
    intro d hd
    obtain rfl | hd := List.mem_cons.mp hd
    · rfl
    · exact isBlank_of_digit (hds.2 d hd)

/-- Only strings hold blanks. -/
theorem Spells.not_blank {c : Char} {cs : List Char} {t : Token} (h : Spells (c :: cs) t)
    (hquote : ¬ IsQuote c) : ∀ d ∈ c :: cs, isBlank d = false := by
  generalize htext : c :: cs = text at h
  cases h with
  | word ht =>
    intro d hd
    exact isBlank_of_nameChar (by rw [isNameChar, chars_of_word ht d hd]; rfl)
  | symbol ht =>
    have hall : ∀ t ∈ Token.symbols, t.spelling.toList.all (!isBlank ·) = true := by decide
    simpa using hall t ht
  | name hc hcs =>
    intro d hd
    obtain rfl | hd := List.mem_cons.mp hd
    · exact isBlank_of_nameChar (by rw [isNameChar, hc]; rfl)
    · exact isBlank_of_nameChar (hcs d hd)
  | number hc hwhole hfraction hexponent =>
    intro d hd
    simp only [List.mem_cons, List.mem_append] at hd
    obtain rfl | (hd | hd) | hd := hd
    · exact isBlank_of_digit hc
    · exact isBlank_of_digit (hwhole d hd)
    · exact isBlank_of_fraction hfraction d hd
    · exact isBlank_of_exponent hexponent d hd
  | point hds hexponent =>
    intro d hd
    simp only [List.mem_cons, List.mem_append] at hd
    obtain rfl | hd | hd := hd
    · rfl
    · exact isBlank_of_digit (hds.2 d hd)
    · exact isBlank_of_exponent hexponent d hd
  | text hquote' =>
    cases htext
    exact absurd hquote' hquote

/-- No token starts with a blank. -/
theorem Spells.head_not_blank {c : Char} {cs : List Char} {t : Token} (h : Spells (c :: cs) t) :
    isBlank c = false := by
  by_cases hquote : IsQuote c
  · obtain rfl | rfl := hquote <;> rfl
  · exact h.not_blank hquote c List.mem_cons_self

/-! ## What follows a longest match -/

/-- The longest match does not depend on a source that goes on. -/
theorem Longest.of_append {text rest more : List Char} {t : Token}
    (h : Longest text (rest ++ more) t) : Longest text rest t where
  spells := h.spells
  longest text' t' hs hprefix := by
    refine h.longest text' t' hs ?_
    rw [← List.append_assoc]
    exact hprefix.trans (List.prefix_append _ more)
  word := h.word

/-- A blank ends every match. -/
theorem Longest.before_blank {text rest other : List Char} {t : Token} {b : Char}
    (h : Longest text rest t) (hb : isBlank b = true) : Longest text (b :: other) t where
  spells := h.spells
  longest text' t' hs hprefix := by
    refine Nat.le_of_not_lt fun hlt => ?_
    -- A longer match would go on over the blank.
    have hblank : text ++ [b] <+: text ++ b :: other := ⟨other, by simp⟩
    obtain ⟨z, rfl⟩ := List.prefix_of_prefix_length_le hblank hprefix (by
      rw [List.length_append]
      exact hlt)
    obtain ⟨c, cs, rfl⟩ := List.exists_cons_of_ne_nil h.spells.ne_nil
    have hs' : Spells (c :: (cs ++ b :: z)) t' := by simpa using hs
    by_cases hquote : IsQuote c
    · -- A string ends with its quote.
      have hlength := hs'.stringLength? hquote []
      rw [List.append_nil, h.spells.stringLength? hquote, List.length_append] at hlength
      simp at hlength
    · have := hs'.not_blank hquote b (by simp)
      rw [hb] at this
      exact nomatch this
  word := h.word

/-! ## Scanning -/

/-- A text splits into lexemes exactly if they tile it. -/
theorem scanFrom_eq_ok_iff {offset : Nat} {cs : List Char} {lexemes : List Lexeme} :
    scanFrom offset cs = .ok lexemes ↔ Tiles offset cs lexemes := by
  constructor
  · -- Every step of the scan is one of the tiling.
    intro h
    fun_induction scanFrom offset cs generalizing lexemes with
    | case1 offset =>
      obtain rfl := Except.ok.inj h
      exact .nil
    | case2 offset c cs hc ih => exact .blank hc (ih h)
    | case3 => exact nomatch h
    | case4 offset c cs hc t n htoken stop =>
      rename_i ih
      obtain ⟨-, hlongest⟩ := longest_of_token? htoken
      cases hrest : scanFrom stop (cs.drop n) with
      | error e =>
        rw [hrest] at h
        exact nomatch h
      | ok rest =>
        rw [hrest] at h
        obtain rfl := Except.ok.inj h
        have htiles := Tiles.token hlongest (ih hrest)
        rwa [List.cons_append, List.take_append_drop] at htiles
  · -- The scan comes by the tiles, since a longest match is what is taken.
    intro h
    induction h with
    | nil => rw [scanFrom]
    | blank hc _ ih => rw [scanFrom, if_pos hc, ih]
    | @token offset text rest t lexemes ht _ ih =>
      obtain ⟨c, cs, rfl⟩ := List.exists_cons_of_ne_nil ht.spells.ne_nil
      have hc := ht.spells.head_not_blank
      rw [List.cons_append, scanFrom, if_neg (by simp [hc]), ht.token?]
      simp only [List.take_left, List.drop_left, ih]
      rfl

/-- Where a text stops splitting into lexemes no token starts, and the text before is tiled. -/
theorem tiles_of_scanFrom_error {offset : Nat} {cs : List Char} {e : SyntaxError}
    (h : scanFrom offset cs = .error e) :
    ∃ text before after lexemes, cs = before ++ after ∧
      e = .unrecognized text (offset + byteLength before) ∧
      (∀ text' t, Spells text' t → ¬ text' <+: after) ∧ Tiles offset before lexemes := by
  fun_induction scanFrom offset cs with
  | case1 => exact nomatch h
  | case2 offset c cs hc ih =>
    obtain ⟨text, before, after, lexemes, rfl, rfl, hnone, htiles⟩ := ih h
    exact ⟨text, c :: before, after, lexemes, rfl, by rw [byteLength_cons, Nat.add_assoc], hnone,
      .blank hc htiles⟩
  | case3 offset c cs hc htoken =>
    cases h
    exact ⟨_, [], _, [], rfl, rfl, fun _ _ hs => not_spells_of_token?_eq_none htoken hs, .nil⟩
  | case4 offset c cs hc t n htoken stop =>
    rename_i ih
    obtain ⟨-, hlongest⟩ := longest_of_token? htoken
    cases hrest : scanFrom stop (cs.drop n) with
    | ok rest =>
      rw [hrest] at h
      exact nomatch h
    | error e' =>
      rw [hrest] at h
      cases h
      obtain ⟨text, before, after, lexemes, hdrop, rfl, hnone, htiles⟩ := ih hrest
      rw [hdrop] at hlongest
      refine ⟨text, c :: cs.take n ++ before, after, _, ?_, ?_, hnone,
        .token hlongest.of_append htiles⟩
      · rw [List.append_assoc, ← hdrop, List.cons_append, List.take_append_drop]
      · rw [byteLength_append, Nat.add_assoc]

/-! ## What a tiling says of the spans -/

section

variable {offset : Nat} {cs : List Char} {lexemes : List Lexeme}

/-- Every lexeme takes up some bytes of the text. -/
theorem Tiles.spans (h : Tiles offset cs lexemes) :
    ∀ l ∈ lexemes, offset ≤ l.start ∧ l.start < l.stop ∧ l.stop ≤ offset + byteLength cs := by
  induction h with
  | nil => exact fun l hl => nomatch hl
  | blank _ _ ih =>
    intro l hl
    obtain ⟨hstart, hlt, hstop⟩ := ih l hl
    rw [byteLength_cons]
    omega
  | @token offset text rest t lexemes ht _ ih =>
    intro l hl
    have hpos := byteLength_pos ht.spells.ne_nil
    rw [byteLength_append]
    obtain rfl | hl := List.mem_cons.mp hl
    · dsimp only
      omega
    · obtain ⟨hstart, hlt, hstop⟩ := ih l hl
      omega

/-- A lexeme ends before the next one starts. -/
theorem Tiles.pairwise (h : Tiles offset cs lexemes) :
    lexemes.Pairwise fun a b => a.stop ≤ b.start := by
  induction h with
  | nil => exact .nil
  | blank _ _ ih => exact ih
  | token _ h ih => exact .cons (fun l hl => (h.spans l hl).1) ih

/-- Lexemes stand in the order of their starts. -/
theorem Tiles.starts (h : Tiles offset cs lexemes) :
    lexemes.Pairwise fun a b => a.start < b.start := by
  refine h.pairwise.imp_of_mem fun {a b} ha _ hab => ?_
  exact Nat.lt_of_lt_of_le (h.spans a ha).2.1 hab

/-- What no lexeme takes up is blank. -/
theorem Tiles.blank_outside (h : Tiles offset cs lexemes) {before after : List Char} {c : Char}
    (heq : cs = before ++ c :: after)
    (hout : ∀ l ∈ lexemes, ¬ (l.start ≤ offset + byteLength before ∧
      offset + byteLength before < l.stop)) : isBlank c = true := by
  induction h generalizing before with
  | nil => simp at heq
  | @blank offset d cs lexemes hd _ ih =>
    cases before with
    | nil =>
      obtain ⟨rfl, -⟩ := List.cons.inj heq
      exact hd
    | cons d' before =>
      obtain ⟨rfl, htail⟩ := List.cons.inj heq
      refine ih htail fun l hl => ?_
      have := hout l hl
      rwa [byteLength_cons, ← Nat.add_assoc] at this
  | @token offset text rest t lexemes ht _ ih =>
    -- The character stands after the text of the first lexeme, since it is not in it.
    obtain ⟨tail, rfl, htail⟩ : ∃ tail, before = text ++ tail ∧ rest = tail ++ c :: after := by
      obtain h | ⟨tail, rfl, htail⟩ := List.append_eq_append_iff.mp heq
      · exact h
      · cases tail with
        | nil => exact ⟨[], by simp, htail.symm⟩
        | cons d tail =>
          refine absurd ⟨Nat.le_add_right _ _, ?_⟩ (hout _ List.mem_cons_self)
          have hpos := byteLength_pos (List.cons_ne_nil d tail)
          show offset + byteLength before < offset + byteLength (before ++ d :: tail)
          rw [byteLength_append]
          omega
    refine ih htail fun l hl => ?_
    have := hout l (List.mem_cons_of_mem _ hl)
    rwa [byteLength_append, ← Nat.add_assoc] at this

/-- The lexeme takes up a text of the source, and is the longest match there. -/
def IsMatch (source : List Char) (l : Lexeme) (text : List Char) : Prop :=
  ∃ before rest, source = before ++ text ++ rest ∧ l.start = byteLength before ∧
    l.stop = byteLength (before ++ text) ∧ Longest text rest l.token

/-- Every lexeme takes up the longest match at its place. -/
theorem Tiles.texts {source before : List Char} (h : Tiles (byteLength before) cs lexemes)
    (hsource : source = before ++ cs) :
    ∃ texts, List.Forall₂ (IsMatch source) lexemes texts := by
  generalize hoffset : byteLength before = offset at h
  induction h generalizing before with
  | nil => exact ⟨[], .nil⟩
  | @blank offset c cs lexemes _ _ ih =>
    exact ih (by rw [hsource]; exact List.append_cons before c cs) (by simp [hoffset])
  | @token offset text rest t lexemes ht _ ih =>
    have hassoc : source = before ++ text ++ rest := by rw [hsource, List.append_assoc]
    obtain ⟨texts, htexts⟩ := ih hassoc (by simp [hoffset])
    refine ⟨text :: texts, .cons ⟨before, rest, hassoc, hoffset.symm, ?_, ht⟩ htexts⟩
    rw [byteLength_append, hoffset]

/-- Texts that are matches are matches with blanks between them. -/
theorem tiles_join {source : List Char} {texts : List (List Char)}
    (h : List.Forall₂ (IsMatch source) lexemes texts) (offset : Nat) :
    ∃ again, Tiles offset ([' '].intercalate texts) again ∧
      again.map Lexeme.token = lexemes.map Lexeme.token := by
  induction h generalizing offset with
  | nil => exact ⟨[], .nil, rfl⟩
  | @cons l text lexemes texts hl htexts ih =>
    obtain ⟨before, rest, -, -, -, hlongest⟩ := hl
    cases htexts with
    | nil =>
      have hlast : Longest text [] l.token := Longest.of_append hlongest
      refine ⟨[⟨l.token, offset, offset + byteLength text⟩], ?_, rfl⟩
      have htiles := Tiles.token hlast (.nil : Tiles (offset + byteLength text) [] [])
      rw [List.append_nil] at htiles
      rwa [List.intercalate_singleton]
    | cons =>
      obtain ⟨again, htiles, hagain⟩ := ih (offset + byteLength text + ' '.utf8Size)
      rw [List.intercalate_cons_cons, List.append_assoc]
      refine ⟨_, .token (hlongest.before_blank rfl) (.blank rfl htiles), ?_⟩
      rw [List.map_cons, List.map_cons, hagain]

end

/-! ## Whole sources -/

/-- The lexemes of a source tile it by longest matches. If there are any, their spans are not empty,
in the bounds of the source and one after the other, what stands outside is blank, each takes up
the longest text at its place that a rule makes a token of, and the texts joined by blanks have the
same tokens. If there are none, no rule makes a token of any text where the error stands, and the
source up to there splits into lexemes. -/
theorem scan_by_longest_match (source : String) :
    (∀ lexemes, scan source = .ok lexemes →
      (∀ l ∈ lexemes, l.start < l.stop ∧ l.stop ≤ source.utf8ByteSize) ∧
      lexemes.Pairwise (fun a b => a.start < b.start ∧ a.stop ≤ b.start) ∧
      (∀ before c after, source.toList = before ++ c :: after →
        (∀ l ∈ lexemes, ¬ (l.start ≤ byteLength before ∧ byteLength before < l.stop)) →
          c = ' ' ∨ c = '\t' ∨ c = '\r' ∨ c = '\n') ∧
      ∃ texts, List.Forall₂ (IsMatch source.toList) lexemes texts ∧
        ∃ again, scan (" ".intercalate (texts.map String.ofList)) = .ok again ∧
          again.map Lexeme.token = lexemes.map Lexeme.token) ∧
    (∀ e, scan source = .error e →
      ∃ text before after, source.toList = before ++ after ∧
        e = .unrecognized text (byteLength before) ∧
        (∀ text' t, Spells text' t → ¬ text' <+: after) ∧
        ∃ lexemes, scan (String.ofList before) = .ok lexemes) := by
  refine ⟨fun lexemes h => ?_, fun e h => ?_⟩
  · have htiles := scanFrom_eq_ok_iff.mp h
    refine ⟨fun l hl => ?_, htiles.starts.and htiles.pairwise, ?_, ?_⟩
    · obtain ⟨-, hlt, hstop⟩ := htiles.spans l hl
      rw [Nat.zero_add, byteLength_toList] at hstop
      exact ⟨hlt, hstop⟩
    · intro before c after heq hout
      exact isBlank_iff.mp (htiles.blank_outside heq (by simpa using hout))
    · obtain ⟨texts, htexts⟩ := @Tiles.texts _ _ _ [] htiles rfl
      obtain ⟨again, hagain, htokens⟩ := tiles_join htexts 0
      refine ⟨texts, htexts, again, ?_, htokens⟩
      rw [scan, String.toList_intercalate, List.map_map]
      simpa [Function.comp_def, scanFrom_eq_ok_iff] using hagain
  · obtain ⟨text, before, after, lexemes, heq, rfl, hnone, htiles⟩ := tiles_of_scanFrom_error h
    refine ⟨text, before, after, heq, by rw [Nat.zero_add], hnone, lexemes, ?_⟩
    rw [scan, String.toList_ofList]
    exact scanFrom_eq_ok_iff.mpr htiles

/-- An operator of two characters, a name that starts as a word does, and a character that starts
no token. -/
theorem scan_by_longest_match_nullable :
    let lexemes : List Lexeme := [⟨.name "a", 0, 1⟩, ⟨.lessEq, 1, 3⟩, ⟨.name "nullable", 3, 11⟩]
    scan "a<=nullable" = .ok lexemes ∧
      (∃ texts, List.Forall₂ (IsMatch "a<=nullable".toList) lexemes texts ∧
        ∃ again, scan (" ".intercalate (texts.map String.ofList)) = .ok again ∧
          again.map Lexeme.token = lexemes.map Lexeme.token) ∧
      scan "a #" = .error (.unrecognized "#" 2) ∧
      ∃ before after, "a #".toList = before ++ after ∧ byteLength before = 2 ∧
        ∃ lexemes, scan (String.ofList before) = .ok lexemes := by
  have hscan : scan "a<=nullable" =
      .ok [⟨.name "a", 0, 1⟩, ⟨.lessEq, 1, 3⟩, ⟨.name "nullable", 3, 11⟩] := by
    decide +kernel
  have herror : scan "a #" = .error (.unrecognized "#" 2) := by decide +kernel
  obtain ⟨-, -, -, htexts⟩ := (scan_by_longest_match "a<=nullable").1 _ hscan
  obtain ⟨text, before, after, heq, he, -, hbefore⟩ := (scan_by_longest_match "a #").2 _ herror
  injection he with _ hoffset
  exact ⟨hscan, htexts, herror, before, after, heq, hoffset.symm, hbefore⟩

end Lexeme

end Dataflow
