import Dataflow.Expr.Lexeme

/-!
# The rules of tokens

`Spells text t` says that a rule of the language makes the token `t` of a text as a whole. The
rules say nothing of what stands around a text, and the texts of several rules can begin alike. So
a source is read by the longest match: in `Longest text rest t` no rule has a token for more of
`text ++ rest` than `text`, and a text that is a word and a name is the word.

* `Longest.unique`: there is only one longest match
* `longest_of_token?`, `Longest.token?`: `token?` takes the longest match
* `not_spells_of_token?_eq_none`: where it takes none, no rule has a token
-/

namespace Dataflow

namespace Token

/-- The words that are tokens of their own. -/
def words : List Token := [.trueWord, .falseWord, .nullWord]

/-- Brackets, separators and operators. -/
def symbols : List Token :=
  [.openParen, .closeParen, .openBracket, .closeBracket, .comma, .dot, .question, .colon, .plus,
    .minus, .star, .slash, .percent, .less, .lessEq, .greater, .greaterEq, .equal, .notEqual, .both,
    .either, .bang]

end Token

namespace Lexeme

/-! ## The rules -/

/-- One digit or more. -/
def Digits (cs : List Char) : Prop := cs ≠ [] ∧ ∀ c ∈ cs, c.isDigit = true

/-- A fraction, which may be missing. -/
inductive Fraction : List Char → Prop where
  | missing : Fraction []
  | digits {ds : List Char} (h : Digits ds) : Fraction ('.' :: ds)

/-- An exponent, which may be missing. -/
inductive Exponent : List Char → Prop where
  | missing : Exponent []
  | digits {e : Char} {sign ds : List Char} (he : e = 'e' ∨ e = 'E')
      (hsign : sign = [] ∨ sign = ['+'] ∨ sign = ['-']) (h : Digits ds) :
      Exponent (e :: (sign ++ ds))

/-- What may stand between two quotes: a backslash always has a character after it, which is no
line end, and a quote always has a backslash before it. -/
inductive Body (quote : Char) : List Char → Prop where
  | nil : Body quote []
  | plain {c : Char} {cs : List Char} (hquote : c ≠ quote) (hescape : c ≠ '\\')
      (h : Body quote cs) : Body quote (c :: cs)
  | escape {c : Char} {cs : List Char} (hc : c ≠ '\n') (h : Body quote cs) :
      Body quote ('\\' :: c :: cs)

/-- Whether strings may start and end with the character. -/
abbrev IsQuote (c : Char) : Prop := c = '"' ∨ c = '\''

/-- A rule makes the token of the text. -/
inductive Spells : List Char → Token → Prop where
  | word {t : Token} (ht : t ∈ Token.words) : Spells t.spelling.toList t
  | symbol {t : Token} (ht : t ∈ Token.symbols) : Spells t.spelling.toList t
  | name {c : Char} {cs : List Char} (hc : isNameStart c = true)
      (hcs : ∀ d ∈ cs, isNameChar d = true) : Spells (c :: cs) (.name (String.ofList (c :: cs)))
  | number {c : Char} {whole fraction exponent : List Char} (hc : c.isDigit = true)
      (hwhole : ∀ d ∈ whole, d.isDigit = true) (hfraction : Fraction fraction)
      (hexponent : Exponent exponent) :
      Spells (c :: (whole ++ fraction ++ exponent))
        (.number (numberValue (c :: (whole ++ fraction ++ exponent))))
  | point {ds exponent : List Char} (hds : Digits ds) (hexponent : Exponent exponent) :
      Spells ('.' :: (ds ++ exponent)) (.number (numberValue ('.' :: (ds ++ exponent))))
  | text {quote : Char} {body : List Char} (hquote : IsQuote quote) (hbody : Body quote body) :
      Spells (quote :: (body ++ [quote])) (.text (String.ofList (unescape body)))

/-- The text is the longest one at its place of which a rule makes a token, and the token is what
it is read as. -/
structure Longest (text rest : List Char) (t : Token) : Prop where
  spells : Spells text t
  longest : ∀ text' t', Spells text' t' → text' <+: text ++ rest → text'.length ≤ text.length
  /-- A word is read where it is the whole text, and only there. -/
  word : ∀ w ∈ Token.words, t = w ↔ text = w.spelling.toList

/-! ## Runs of characters -/

section

variable {p : Char → Bool} {xs ys cs : List Char}

theorem run_append (h : ∀ x ∈ xs, p x = true) : run p (xs ++ ys) = xs.length + run p ys := by
  rw [run, List.takeWhile_append_of_pos h, List.length_append]
  rfl

theorem run_cons_of_neg {c : Char} (h : p c = false) : run p (c :: cs) = 0 := by
  rw [run, List.takeWhile_cons_of_neg (by simp [h]), List.length_nil]

theorem run_le_length : run p cs ≤ cs.length := (List.takeWhile_prefix p).length_le

theorem take_run : cs.take (run p cs) = cs.takeWhile p :=
  (List.prefix_iff_eq_take.mp (List.takeWhile_prefix p)).symm

theorem of_mem_take_run {c : Char} (h : c ∈ cs.take (run p cs)) : p c = true := by
  rw [take_run] at h
  exact List.all_eq_true.mp List.all_takeWhile c h

/-- A run is as long as every prefix of its characters. -/
theorem length_le_run (h : ∀ x ∈ xs, p x = true) (hxs : xs <+: cs) : xs.length ≤ run p cs := by
  obtain ⟨ys, rfl⟩ := hxs
  rw [run_append h]
  exact Nat.le_add_right _ _

end

theorem digits_take_run {cs : List Char} (h : run Char.isDigit cs ≠ 0) :
    Digits (cs.take (run Char.isDigit cs)) := by
  refine ⟨fun hnil => h ?_, fun c hc => of_mem_take_run hc⟩
  rw [take_run] at hnil
  rw [run, hnil, List.length_nil]

/-! ## Numbers -/

theorem isDigit_of_exponent {e : Char} (h : e = 'e' ∨ e = 'E') : e.isDigit = false := by
  obtain rfl | rfl := h <;> rfl

/-- What an exponent starts with is neither a digit nor a point. -/
theorem Exponent.run_append {e z : List Char} (h : Exponent e) (he : e ≠ []) :
    run Char.isDigit (e ++ z) = 0 ∧ fractionLength (e ++ z) = 0 := by
  cases h with
  | missing => exact absurd rfl he
  | digits hletter =>
    refine ⟨run_cons_of_neg (isDigit_of_exponent hletter), ?_⟩
    obtain rfl | rfl := hletter <;> rfl

theorem exponent_take (cs : List Char) :
    exponentLength cs ≤ cs.length ∧ Exponent (cs.take (exponentLength cs)) := by
  unfold exponentLength
  split
  · rename_i c rest
    split
    · rename_i he
      split
      · rename_i s digits
        split
        · rename_i hsign
          split
          · exact ⟨Nat.zero_le _, .missing⟩
          · rename_i hrun
            refine ⟨?_, ?_⟩
            · exact Nat.succ_le_succ (Nat.succ_le_succ run_le_length)
            · rw [List.take_succ_cons, List.take_succ_cons]
              refine @Exponent.digits _ [s] _ he (.inr ?_) (digits_take_run hrun)
              exact hsign.imp (fun h => by rw [h]) fun h => by rw [h]
        · split
          · exact ⟨Nat.zero_le _, .missing⟩
          · rename_i hrun
            refine ⟨?_, ?_⟩
            · exact Nat.succ_le_succ run_le_length
            · rw [List.take_succ_cons]
              exact @Exponent.digits _ [] _ he (.inl rfl) (digits_take_run hrun)
      · exact ⟨Nat.zero_le _, .missing⟩
    · exact ⟨Nat.zero_le _, .missing⟩
  · exact ⟨Nat.zero_le _, .missing⟩

theorem Exponent.length_le {e z : List Char} (h : Exponent e) :
    e.length ≤ exponentLength (e ++ z) := by
  cases h with
  | missing => exact Nat.zero_le _
  | @digits e sign ds he hsign hds =>
    have hrun : ds.length ≤ run Char.isDigit (ds ++ z) :=
      length_le_run hds.2 (List.prefix_append ds z)
    have hpos : 0 < ds.length := List.length_pos_iff.mpr hds.1
    obtain rfl | hsign := hsign
    · -- Without a sign the digits follow at once, and a digit is no sign.
      obtain ⟨d, ds, rfl⟩ := List.exists_cons_of_ne_nil hds.1
      have hd : d.isDigit = true := hds.2 d List.mem_cons_self
      have hnot : ¬ (d = '+' ∨ d = '-') := by
        rintro (rfl | rfl) <;> exact nomatch hd
      rw [List.cons_append] at hrun
      simp only [List.nil_append, List.cons_append, exponentLength, he, if_true, hnot, if_false]
      split
      · omega
      · rw [List.length_cons]
        omega
    · obtain ⟨s, rfl, hs⟩ : ∃ s, sign = [s] ∧ (s = '+' ∨ s = '-') :=
        hsign.elim (fun h => ⟨_, h, .inl rfl⟩) fun h => ⟨_, h, .inr rfl⟩
      simp only [List.cons_append, List.nil_append, exponentLength, he, hs, if_true]
      split
      · omega
      · simp only [List.length_cons]
        omega

theorem fraction_take (cs : List Char) :
    fractionLength cs ≤ cs.length ∧ Fraction (cs.take (fractionLength cs)) := by
  unfold fractionLength
  split
  · rename_i rest
    split
    · exact ⟨Nat.zero_le _, .missing⟩
    · rename_i hrun
      refine ⟨Nat.succ_le_succ run_le_length, ?_⟩
      rw [List.take_succ_cons]
      exact .digits (digits_take_run hrun)
  · exact ⟨Nat.zero_le _, .missing⟩

theorem Fraction.length_le {fraction z : List Char} (h : Fraction fraction) :
    fraction.length ≤ fractionLength (fraction ++ z) := by
  cases h with
  | missing => exact Nat.zero_le _
  | @digits ds hds =>
    have hpos : 0 < ds.length := List.length_pos_iff.mpr hds.1
    rw [List.cons_append, fractionLength, run_append hds.2, if_neg (by omega), List.length_cons]
    omega

/-- A fraction ends where neither a digit nor another fraction follows. -/
theorem Fraction.length_eq {fraction z : List Char} (h : Fraction fraction)
    (hrun : run Char.isDigit z = 0) (hz : fractionLength z = 0) :
    fractionLength (fraction ++ z) = fraction.length := by
  cases h with
  | missing => exact hz
  | @digits ds hds =>
    have hpos : 0 < ds.length := List.length_pos_iff.mpr hds.1
    rw [List.cons_append, fractionLength, run_append hds.2, hrun, if_neg (by omega),
      List.length_cons]

/-- What is read after the first digit of a number. -/
theorem number_take (cs : List Char) :
    numberLength cs ≤ cs.length ∧ ∃ whole fraction exponent,
      cs.take (numberLength cs) = whole ++ fraction ++ exponent ∧
        (∀ d ∈ whole, d.isDigit = true) ∧ Fraction fraction ∧ Exponent exponent := by
  let whole := run Char.isDigit cs
  have hwhole : whole ≤ cs.length := run_le_length
  obtain ⟨hf, hfraction⟩ := fraction_take (cs.drop whole)
  obtain ⟨he, hexponent⟩ := exponent_take (cs.drop (whole + fractionLength (cs.drop whole)))
  rw [List.length_drop] at hf he
  refine ⟨?_, cs.take whole, _, _, ?_, fun d hd => of_mem_take_run hd, hfraction, hexponent⟩
  · show whole + fractionLength (cs.drop whole) +
      exponentLength (cs.drop (whole + fractionLength (cs.drop whole))) ≤ cs.length
    omega
  · rw [← List.take_add, ← List.take_add]
    rfl

/-- What is read after the point of a number that starts with it. -/
theorem point_take {cs : List Char} (h : 0 < pointLength cs) :
    pointLength cs ≤ cs.length ∧ ∃ ds exponent,
      cs.take (pointLength cs) = ds ++ exponent ∧ Digits ds ∧ Exponent exponent := by
  let digits := run Char.isDigit cs
  have hle : digits ≤ cs.length := run_le_length
  obtain ⟨he, hexponent⟩ := exponent_take (cs.drop digits)
  rw [List.length_drop] at he
  by_cases hrun : digits = 0
  · rw [pointLength, if_pos hrun] at h
    exact absurd h (Nat.lt_irrefl 0)
  · have hlength : pointLength cs = digits + exponentLength (cs.drop digits) := if_neg hrun
    rw [hlength]
    exact ⟨by omega, _, _, List.take_add, digits_take_run hrun, hexponent⟩

/-- What follows the first digit of a number is no longer than what is read there. -/
theorem length_le_numberLength {whole fraction exponent z : List Char}
    (hwhole : ∀ d ∈ whole, d.isDigit = true) (hfraction : Fraction fraction)
    (hexponent : Exponent exponent) :
    (whole ++ fraction ++ exponent).length ≤
      numberLength (whole ++ fraction ++ exponent ++ z) := by
  simp only [List.append_assoc, List.length_append, numberLength]
  by_cases hnil : fraction ++ exponent = []
  · -- Digits alone are part of the run of digits.
    obtain ⟨rfl, rfl⟩ := List.append_eq_nil_iff.mp hnil
    have := length_le_run hwhole (List.prefix_append whole z)
    simp only [List.nil_append, List.length_nil]
    omega
  · -- Otherwise the run ends with the whole part.
    have hrun : run Char.isDigit (fraction ++ (exponent ++ z)) = 0 := by
      cases hfraction with
      | missing => exact (hexponent.run_append (by simpa using hnil)).1
      | digits => exact run_cons_of_neg rfl
    rw [run_append hwhole, hrun, Nat.add_zero, List.drop_left]
    by_cases he : exponent = []
    · subst he
      have := hfraction.length_le (z := [] ++ z)
      simp only [List.length_nil]
      omega
    · obtain ⟨hdigits, hpoint⟩ := hexponent.run_append (z := z) he
      rw [hfraction.length_eq hdigits hpoint, ← List.drop_drop, List.drop_left, List.drop_left]
      have := hexponent.length_le (z := z)
      omega

/-- What follows the point of a number is no longer than what is read there. -/
theorem length_le_pointLength {ds exponent z : List Char} (hds : Digits ds)
    (hexponent : Exponent exponent) :
    (ds ++ exponent).length ≤ pointLength (ds ++ exponent ++ z) := by
  have hpos : 0 < ds.length := List.length_pos_iff.mpr hds.1
  simp only [List.append_assoc, List.length_append, pointLength]
  rw [run_append hds.2, if_neg (by omega)]
  by_cases he : exponent = []
  · subst he
    simp only [List.length_nil]
    omega
  · rw [(hexponent.run_append he).1, Nat.add_zero, List.drop_left]
    have := hexponent.length_le (z := z)
    omega

/-! ## Strings -/

theorem IsQuote.ne_escape {quote : Char} (h : IsQuote quote) : quote ≠ '\\' := by
  obtain rfl | rfl := h <;> decide

/-- A string is read up to the first quote that can close it. -/
theorem Body.stringLength? {quote : Char} {body rest : List Char} (h : Body quote body)
    (hquote : IsQuote quote) :
    stringLength? quote (body ++ quote :: rest) = some (body.length + 1) := by
  induction h with
  | nil =>
    have := hquote.ne_escape
    rw [List.nil_append, Lexeme.stringLength?, if_pos rfl]
    · rfl
    · exact fun h => absurd h this
    · exact fun _ _ h => absurd h this
  | @plain c cs hc hescape _ ih =>
    rw [List.cons_append, Lexeme.stringLength?, if_neg hc, ih]
    · rfl
    · exact fun h => absurd h hescape
    · exact fun _ _ h => absurd h hescape
  | @escape c cs hc _ ih =>
    rw [List.cons_append, List.cons_append, Lexeme.stringLength?, if_neg hc, ih]
    rfl

theorem body_of_stringLength? {quote : Char} {cs : List Char} {n : Nat}
    (h : stringLength? quote cs = some n) :
    ∃ body rest, Body quote body ∧ cs = body ++ quote :: rest ∧ n = body.length + 1 := by
  fun_induction Lexeme.stringLength? quote cs generalizing n with
  | case1 => exact nomatch h
  | case2 => exact nomatch h
  | case3 => exact nomatch h
  | case4 c rest hc ih =>
    obtain ⟨m, hm, rfl⟩ := Option.map_eq_some_iff.mp h
    obtain ⟨body, after, hbody, rfl, rfl⟩ := ih hm
    exact ⟨'\\' :: c :: body, after, .escape hc hbody, rfl, rfl⟩
  | case5 rest h₁ h₂ =>
    obtain rfl := Option.some.inj h
    exact ⟨[], rest, .nil, rfl, rfl⟩
  | case6 c rest h₁ h₂ hc ih =>
    obtain ⟨m, hm, rfl⟩ := Option.map_eq_some_iff.mp h
    obtain ⟨body, after, hbody, rfl, rfl⟩ := ih hm
    have hescape : c ≠ '\\' := by
      rintro rfl
      cases body with
      | nil => exact h₂ _ _ rfl rfl
      | cons d body => exact h₂ _ _ rfl rfl
    exact ⟨c :: body, after, .plain hc hescape hbody, rfl, rfl⟩

/-! ## Symbols and words -/

theorem head_of_symbol {t : Token} (ht : t ∈ Token.symbols) {c : Char} {cs : List Char}
    (h : t.spelling.toList = c :: cs) :
    isNameStart c = false ∧ c.isDigit = false ∧ ¬ IsQuote c := by
  have hall : ∀ t ∈ Token.symbols, t.spelling.toList.head?.all (fun c =>
      !isNameStart c && !c.isDigit && !decide (c = '"' ∨ c = '\'')) = true := by decide
  have hc := hall t ht
  rw [h] at hc
  simpa [and_assoc] using hc

theorem chars_of_word {t : Token} (ht : t ∈ Token.words) :
    ∀ c ∈ t.spelling.toList, isNameStart c = true := by
  have hall : ∀ t ∈ Token.words, t.spelling.toList.all isNameStart = true := by decide
  exact List.all_eq_true.mp (hall t ht)

/-- A symbol that starts as a number can is only that point. -/
theorem eq_nil_of_point {t : Token} (ht : t ∈ Token.symbols) {cs : List Char}
    (h : t.spelling.toList = '.' :: cs) : cs = [] := by
  have hall : ∀ t ∈ Token.symbols, t.spelling.toList.head? = some '.' →
      t.spelling.toList.tail = [] := by decide
  have := hall t ht (by rw [h]; rfl)
  rwa [h] at this

/-- Symbols are told apart by their spelling. -/
theorem symbol_unique {t t' : Token} (ht : t ∈ Token.symbols) (ht' : t' ∈ Token.symbols)
    (h : t.spelling.toList = t'.spelling.toList) : t = t' := by
  have hall : ∀ t ∈ Token.symbols, (t.spelling.toList.head?.bind fun c =>
      (symbol? c t.spelling.toList.tail).map Prod.fst) = some t := by decide
  exact Option.some.inj ((hall t ht).symm.trans (h ▸ hall t' ht'))

/-- What is taken for a symbol is one. -/
theorem of_symbol? {c : Char} {cs : List Char} {t : Token} {n : Nat}
    (h : symbol? c cs = some (t, n)) :
    t ∈ Token.symbols ∧ n ≤ cs.length ∧ t.spelling.toList = c :: cs.take n := by
  unfold symbol? at h
  split at h
  case h_23 => exact nomatch h
  all_goals
    cases h
    exact ⟨by decide, by simp, rfl⟩

/-- Three characters are symbols whatever follows, though perhaps the first half of one. -/
theorem exists_symbol?_of_half {c : Char} (hc : c = '<' ∨ c = '>' ∨ c = '!') (cs : List Char) :
    ∃ t n, symbol? c cs = some (t, n) := by
  cases cs with
  | nil => obtain rfl | rfl | rfl := hc <;> exact ⟨_, _, rfl⟩
  | cons d cs =>
    by_cases hd : d = '='
    · subst hd
      obtain rfl | rfl | rfl := hc <;> exact ⟨_, _, rfl⟩
    · obtain rfl | rfl | rfl := hc <;> simp [symbol?, hd]

/-- Where a symbol stands, one at least as long is taken. -/
theorem exists_symbol? {t : Token} (ht : t ∈ Token.symbols) {c : Char} {cs : List Char}
    (h : t.spelling.toList <+: c :: cs) :
    ∃ t' n, symbol? c cs = some (t', n) ∧ t.spelling.toList.length ≤ n + 1 := by
  obtain ⟨rest, hrest⟩ := h
  cases t
  case number | text | name => simp [Token.symbols] at ht
  case trueWord | falseWord | nullWord => exact absurd ht (by decide)
  case less | greater | bang =>
    obtain ⟨hc, -⟩ := List.cons.inj hrest
    obtain ⟨t', n, h⟩ := exists_symbol?_of_half (c := c) (by rw [← hc]; decide) cs
    exact ⟨t', n, h, Nat.succ_le_succ (Nat.zero_le n)⟩
  all_goals
    obtain ⟨rfl, rfl⟩ := List.cons.inj hrest
    exact ⟨_, _, rfl, by decide⟩

/-! ## The longest match -/

theorem Spells.eq_spelling {text : List Char} {t : Token} (h : Spells text t)
    (ht : t ∈ Token.words) : text = t.spelling.toList := by
  cases h with
  | word => rfl
  | symbol => rfl
  | _ => simp [Token.words] at ht

theorem Spells.ne_nil {text : List Char} {t : Token} (h : Spells text t) : text ≠ [] := by
  cases h with
  | word ht =>
    have hall : ∀ t ∈ Token.words, t.spelling.toList ≠ [] := by decide
    exact hall _ ht
  | symbol ht =>
    have hall : ∀ t ∈ Token.symbols, t.spelling.toList ≠ [] := by decide
    exact hall _ ht
  | _ => exact List.cons_ne_nil _ _

theorem isDigit_of_isAlpha {c : Char} (h : c.isAlpha = true) : c.isDigit = false := by
  have hletter : (decide (c.val ≥ 'A'.val ∧ c.val ≤ 'Z'.val) ||
      decide (c.val ≥ 'a'.val) && decide (c.val ≤ 'z'.val)) = true := h
  simp only [Bool.or_eq_true, Bool.and_eq_true, decide_eq_true_eq, ge_iff_le,
    UInt32.le_iff_toNat_le] at hletter
  -- Both ranges of letters come after the digits.
  have hupper : 'A'.val.toNat = 65 := rfl
  have hlower : 'a'.val.toNat = 97 := rfl
  have hnine : '9'.toNat = 57 := rfl
  have hc : c.toNat = c.val.toNat := rfl
  rw [← Bool.not_eq_true, Char.isDigit_iff_toNat]
  omega

theorem isDigit_of_nameStart {c : Char} (h : isNameStart c = true) : c.isDigit = false := by
  rw [isNameStart, Bool.or_eq_true, Bool.or_eq_true] at h
  obtain (h | h) | h := h
  · exact isDigit_of_isAlpha h
  · obtain rfl := beq_iff_eq.mp h
    rfl
  · obtain rfl := beq_iff_eq.mp h
    rfl

theorem isNameStart_of_quote {c : Char} (h : IsQuote c) :
    isNameStart c = false ∧ c.isDigit = false := by
  obtain rfl | rfl := h <;> exact ⟨rfl, rfl⟩

section

variable {c : Char} {cs : List Char} {t : Token}

/-- The first character of a text tells by which rules it can be spelled. -/
theorem Spells.by_head (h : Spells (c :: cs) t) :
    if isNameStart c then
      (∀ d ∈ cs, isNameChar d = true) ∧
        (t ∈ Token.words ∧ t.spelling.toList = c :: cs ∨ t = .name (String.ofList (c :: cs)))
    else if c.isDigit then
      t = .number (numberValue (c :: cs)) ∧
        ∃ whole fraction exponent, cs = whole ++ fraction ++ exponent ∧
          (∀ d ∈ whole, d.isDigit = true) ∧ Fraction fraction ∧ Exponent exponent
    else if c = '"' ∨ c = '\'' then
      ∃ body, cs = body ++ [c] ∧ Body c body ∧ t = .text (String.ofList (unescape body))
    else
      (t ∈ Token.symbols ∧ t.spelling.toList = c :: cs) ∨
        (c = '.' ∧ t = .number (numberValue (c :: cs)) ∧
          ∃ ds exponent, cs = ds ++ exponent ∧ Digits ds ∧ Exponent exponent) := by
  -- Only words and names start alike, and the point and the numbers without a whole part.
  generalize htext : c :: cs = text at h
  cases h with
  | word ht =>
    have hname : ∀ d ∈ c :: cs, isNameStart d = true := htext ▸ chars_of_word ht
    rw [if_pos (hname c List.mem_cons_self)]
    refine ⟨fun d hd => ?_, .inl ⟨ht, rfl⟩⟩
    rw [isNameChar, hname d (List.mem_cons_of_mem c hd)]
    rfl
  | symbol ht =>
    obtain ⟨hname, hdigit, hquote⟩ := head_of_symbol ht htext.symm
    rw [if_neg (by simp [hname]), if_neg (by simp [hdigit]), if_neg hquote]
    exact .inl ⟨ht, rfl⟩
  | name hc hcs =>
    cases htext
    rw [if_pos hc]
    exact ⟨hcs, .inr rfl⟩
  | number hc hwhole hfraction hexponent =>
    cases htext
    have hname : ¬ isNameStart c = true := fun h => by simp [isDigit_of_nameStart h] at hc
    rw [if_neg hname, if_pos hc]
    exact ⟨rfl, _, _, _, rfl, hwhole, hfraction, hexponent⟩
  | point hds hexponent =>
    cases htext
    exact .inr ⟨rfl, rfl, _, _, rfl, hds, hexponent⟩
  | text hquote hbody =>
    cases htext
    obtain ⟨hname, hdigit⟩ := isNameStart_of_quote hquote
    rw [if_neg (by simp [hname]), if_neg (by simp [hdigit]), if_pos hquote]
    exact ⟨_, rfl, hbody, rfl⟩

/-- A string ends with the first quote that can close it, whatever follows. -/
theorem Spells.stringLength? (h : Spells (c :: cs) t) (hquote : IsQuote c) (rest : List Char) :
    Lexeme.stringLength? c (cs ++ rest) = some cs.length := by
  obtain ⟨hname, hdigit⟩ := isNameStart_of_quote hquote
  have hhead := h.by_head
  rw [if_neg (by simp [hname]), if_neg (by simp [hdigit]), if_pos hquote] at hhead
  obtain ⟨body, rfl, hbody, -⟩ := hhead
  rw [List.append_assoc, List.singleton_append, hbody.stringLength? hquote, List.length_append]
  rfl

/-! ## Taking a token -/

/-- Where a rule makes a token of what stands there, one at least as long is taken. -/
theorem exists_token? {text : List Char} (hs : Spells (c :: text) t) (htext : text <+: cs) :
    ∃ t' n, token? c cs = some (t', n) ∧ text.length ≤ n := by
  -- What is taken goes by the first character, and so do the rules.
  have hhead := hs.by_head
  obtain ⟨z, rfl⟩ := htext
  unfold token?
  split
  · rename_i hname
    rw [if_pos hname] at hhead
    exact ⟨_, _, rfl, length_le_run hhead.1 (List.prefix_append text z)⟩
  · rename_i hname
    rw [if_neg hname] at hhead
    split
    · rename_i hdigit
      rw [if_pos hdigit] at hhead
      obtain ⟨-, whole, fraction, exponent, rfl, hwhole, hfraction, hexponent⟩ := hhead
      exact ⟨_, _, rfl, length_le_numberLength hwhole hfraction hexponent⟩
    · rename_i hdigit
      rw [if_neg hdigit] at hhead
      split
      · rename_i hquote
        rw [hs.stringLength? hquote]
        exact ⟨_, _, rfl, Nat.le_refl _⟩
      · rename_i hquote
        rw [if_neg hquote] at hhead
        obtain ⟨ht, hspelling⟩ | ⟨rfl, -, ds, exponent, rfl, hds, hexponent⟩ := hhead
        · have hprefix : t.spelling.toList <+: c :: (text ++ z) := by
            rw [hspelling]
            exact List.prefix_append (c :: text) z
          obtain ⟨t', n, hsymbol, hle⟩ := exists_symbol? ht hprefix
          rw [hspelling] at hle
          split
          · -- A point that starts a number is longer than the symbol.
            rename_i hpoint
            obtain ⟨rfl, -⟩ := hpoint
            obtain rfl := eq_nil_of_point ht hspelling
            exact ⟨_, _, rfl, Nat.zero_le _⟩
          · exact ⟨t', n, hsymbol, Nat.le_of_succ_le_succ hle⟩
        · have hle := length_le_pointLength (z := z) hds hexponent
          have hpos : 0 < ds.length := List.length_pos_iff.mpr hds.1
          rw [if_pos ⟨rfl, by rw [List.length_append] at hle; omega⟩]
          exact ⟨_, _, rfl, hle⟩

theorem spells_wordToken (hc : isNameStart c = true) (hcs : ∀ d ∈ cs, isNameChar d = true) :
    Spells (c :: cs) (wordToken (c :: cs)) ∧
      ∀ w ∈ Token.words, c :: cs = w.spelling.toList → wordToken (c :: cs) = w := by
  have hword : ∀ w ∈ Token.words, wordToken w.spelling.toList = w := by decide
  refine ⟨?_, fun w hw h => h ▸ hword w hw⟩
  have hof : ∀ {w : Token}, w ∈ Token.words → String.ofList (c :: cs) = w.spelling →
      Spells (c :: cs) w := by
    intro w hw h
    rw [← String.toList_ofList (l := c :: cs), h]
    exact .word hw
  unfold wordToken
  split
  · rename_i h
    exact hof (by decide) h
  · rename_i h
    exact hof (by decide) h
  · rename_i h
    exact hof (by decide) h
  · exact .name hc hcs

/-- What is taken for a token is one by some rule, and a word if it can be. -/
theorem spells_of_token? {n : Nat} (h : token? c cs = some (t, n)) :
    n ≤ cs.length ∧ Spells (c :: cs.take n) t ∧
      ∀ w ∈ Token.words, c :: cs.take n = w.spelling.toList → t = w := by
  -- Where a word stands, a name starts.
  have hword : ¬ isNameStart c = true → ∀ w ∈ Token.words, ∀ text,
      c :: text = w.spelling.toList → t = w := by
    intro hname w hw text heq
    exact absurd (chars_of_word hw c (heq ▸ List.mem_cons_self)) hname
  unfold token? at h
  split at h
  · rename_i hname
    obtain ⟨rfl, rfl⟩ := Prod.mk.inj (Option.some.inj h)
    obtain ⟨hspells, hwords⟩ := spells_wordToken hname
      fun d (hd : d ∈ cs.take (run isNameChar cs)) => of_mem_take_run hd
    exact ⟨run_le_length, hspells, hwords⟩
  · rename_i hname
    split at h
    · rename_i hdigit
      obtain ⟨rfl, rfl⟩ := Prod.mk.inj (Option.some.inj h)
      obtain ⟨hle, whole, fraction, exponent, htake, hwhole, hfraction, hexponent⟩ :=
        number_take cs
      refine ⟨hle, ?_, fun w hw => hword hname w hw _⟩
      rw [htake]
      exact .number hdigit hwhole hfraction hexponent
    · split at h
      · rename_i hquote
        obtain ⟨m, hm, heq⟩ := Option.map_eq_some_iff.mp h
        obtain ⟨rfl, rfl⟩ := Prod.mk.inj heq
        obtain ⟨body, rest, hbody, rfl, rfl⟩ := body_of_stringLength? hm
        have htake : (body ++ c :: rest).take (body.length + 1) = body ++ [c] := by
          rw [List.take_append, List.take_of_length_le (Nat.le_succ _), Nat.add_sub_cancel_left]
          rfl
        refine ⟨by simp, ?_, fun w hw => hword hname w hw _⟩
        rw [htake, Nat.add_sub_cancel, List.take_left]
        exact .text hquote hbody
      · split at h
        · rename_i hpoint
          obtain ⟨rfl, hpos⟩ := hpoint
          obtain ⟨rfl, rfl⟩ := Prod.mk.inj (Option.some.inj h)
          obtain ⟨hle, ds, exponent, htake, hds, hexponent⟩ := point_take hpos
          refine ⟨hle, ?_, fun w hw => hword hname w hw _⟩
          rw [htake]
          exact .point hds hexponent
        · obtain ⟨ht, hle, hspelling⟩ := of_symbol? h
          exact ⟨hle, hspelling ▸ .symbol ht, fun w hw => hword hname w hw _⟩

/-- What is taken for a token is the longest match. -/
theorem longest_of_token? {n : Nat} (h : token? c cs = some (t, n)) :
    n ≤ cs.length ∧ Longest (c :: cs.take n) (cs.drop n) t := by
  obtain ⟨hle, hspells, hword⟩ := spells_of_token? h
  refine ⟨hle, hspells, fun text' t' hs hprefix => ?_, fun w hw => ⟨fun ht => ?_, hword w hw⟩⟩
  · -- Another text that stands there is no longer than what is taken.
    obtain ⟨d, text, rfl⟩ := List.exists_cons_of_ne_nil hs.ne_nil
    rw [List.cons_append, List.take_append_drop] at hprefix
    obtain ⟨rfl, htext⟩ := List.cons_prefix_cons.mp hprefix
    obtain ⟨t₀, n₀, h₀, htextLe⟩ := exists_token? hs htext
    obtain ⟨rfl, rfl⟩ := Prod.mk.inj (Option.some.inj (h₀.symm.trans h))
    rw [List.length_cons, List.length_cons, List.length_take, Nat.min_eq_left hle]
    exact Nat.succ_le_succ htextLe
  · subst ht
    exact hspells.eq_spelling hw

end

/-- Where no token is taken, no rule has one. -/
theorem not_spells_of_token?_eq_none {c : Char} {cs : List Char} (h : token? c cs = none)
    {text : List Char} {t : Token} (hs : Spells text t) : ¬ text <+: c :: cs := by
  intro hprefix
  obtain ⟨d, text, rfl⟩ := List.exists_cons_of_ne_nil hs.ne_nil
  obtain ⟨rfl, htext⟩ := List.cons_prefix_cons.mp hprefix
  obtain ⟨t', n, hsome, -⟩ := exists_token? hs htext
  rw [h] at hsome
  exact nomatch hsome

/-- A text that is no word is the text of one token. -/
theorem Spells.unique {text : List Char} {t t' : Token} (h : Spells text t) (h' : Spells text t')
    (hword : ∀ w ∈ Token.words, text ≠ w.spelling.toList) : t = t' := by
  obtain ⟨c, cs, rfl⟩ := List.exists_cons_of_ne_nil h.ne_nil
  -- The first character leaves the same rules for both.
  have hhead := h.by_head
  have hhead' := h'.by_head
  split at hhead
  · rename_i hname
    rw [if_pos hname] at hhead'
    obtain ⟨-, ⟨ht, hspelling⟩ | rfl⟩ := hhead
    · exact absurd hspelling.symm (hword t ht)
    · obtain ⟨-, ⟨ht', hspelling'⟩ | rfl⟩ := hhead'
      · exact absurd hspelling'.symm (hword t' ht')
      · rfl
  · rename_i hname
    rw [if_neg hname] at hhead'
    split at hhead
    · rename_i hdigit
      rw [if_pos hdigit] at hhead'
      exact hhead.1.trans hhead'.1.symm
    · rename_i hdigit
      rw [if_neg hdigit] at hhead'
      split at hhead
      · rename_i hquote
        rw [if_pos hquote] at hhead'
        obtain ⟨body, rfl, -, rfl⟩ := hhead
        obtain ⟨body', hbody', -, rfl⟩ := hhead'
        rw [List.append_cancel_right hbody']
      · rename_i hquote
        rw [if_neg hquote] at hhead'
        obtain ⟨ht, hspelling⟩ | ⟨rfl, rfl, ds, exponent, rfl, hds, -⟩ := hhead
        · obtain ⟨ht', hspelling'⟩ | ⟨rfl, -, ds, exponent, rfl, hds, -⟩ := hhead'
          · exact symbol_unique ht ht' (hspelling.trans hspelling'.symm)
          · have hnil := eq_nil_of_point ht hspelling
            exact absurd (List.append_eq_nil_iff.mp hnil).1 hds.1
        · obtain ⟨ht', hspelling'⟩ | ⟨-, rfl, -⟩ := hhead'
          · have hnil := eq_nil_of_point ht' hspelling'
            exact absurd (List.append_eq_nil_iff.mp hnil).1 hds.1
          · rfl

/-- There is only one longest match. -/
theorem Longest.unique {text text' rest rest' : List Char} {t t' : Token}
    (h : Longest text rest t) (h' : Longest text' rest' t')
    (heq : text ++ rest = text' ++ rest') : text = text' ∧ rest = rest' ∧ t = t' := by
  have hle : text'.length ≤ text.length :=
    h.longest text' t' h'.spells (heq ▸ List.prefix_append text' rest')
  have hle' : text.length ≤ text'.length :=
    h'.longest text t h.spells (heq ▸ List.prefix_append text rest)
  obtain ⟨rfl, rfl⟩ := List.append_inj heq (Nat.le_antisymm hle' hle)
  refine ⟨rfl, rfl, ?_⟩
  by_cases hword : ∃ w ∈ Token.words, text = w.spelling.toList
  · obtain ⟨w, hw, htext⟩ := hword
    rw [(h.word w hw).mpr htext, (h'.word w hw).mpr htext]
  · exact h.spells.unique h'.spells fun w hw htext => hword ⟨w, hw, htext⟩

/-- The longest match is what is taken for a token. -/
theorem Longest.token? {c : Char} {text rest : List Char} {t : Token}
    (h : Longest (c :: text) rest t) : token? c (text ++ rest) = some (t, text.length) := by
  obtain ⟨t', n, hsome, -⟩ := exists_token? h.spells (List.prefix_append text rest)
  obtain ⟨hle, h'⟩ := longest_of_token? hsome
  obtain ⟨htext, -, rfl⟩ := h.unique h' (by simp)
  have hlength := congrArg List.length (List.cons.inj htext).2
  rw [List.length_take, Nat.min_eq_left hle] at hlength
  rw [hsome, hlength]

end Lexeme

end Dataflow
