import Dataflow.Expr.Eval
import Dataflow.Proofs.ExprParserComplete
import Dataflow.Proofs.SourceTiling

/-!
# String literals

Where a string ends and what it stands for are settled apart: its end is the first quote that is
not escaped, and its value comes from what is between the quotes. The two agree on a body that is
put together from ways to write single characters (`Writes`), so that every text has a literal with
either quote (`string_literal_value`).
-/

namespace Dataflow

/-- What a string stands between. -/
inductive Quote where
  | single
  | double
deriving DecidableEq, Repr

namespace Quote

/-- The character of a quote. -/
def char : Quote → Char
  | .single => '\''
  | .double => '"'

/-- The letter by which an escape names a character. -/
def letter? : Char → Option Char
  | '\n' => some 'n'
  | '\t' => some 't'
  | '\r' => some 'r'
  | '\x00' => some '0'
  | _ => none

/-- How a character is written in a literal: a backslash and a quote behind a backslash, and
perhaps the characters that have a letter by it. -/
def escape (q : Quote) (byLetter : Bool) (c : Char) : List Char :=
  match if byLetter then letter? c else none with
  | some l => ['\\', l]
  | none => if c = '\\' ∨ c = q.char then ['\\', c] else [c]

/-- The literal of a text. -/
def literal (q : Quote) (byLetter : Bool) (s : String) : String :=
  String.ofList (q.char :: (s.toList.flatMap (q.escape byLetter) ++ [q.char]))

theorem isQuote (q : Quote) : Lexeme.IsQuote q.char := by
  cases q
  · exact .inr rfl
  · exact .inl rfl

end Quote

namespace Lexeme

/-- A way to write a character between quotes: as it is, or as an escape that stands for it. -/
inductive Writes (quote : Char) (c : Char) : List Char → Prop where
  | plain (hquote : c ≠ quote) (hescape : c ≠ '\\') : Writes quote c [c]
  | escape {d : Char} (hd : d ≠ '\n') (hc : unescapeChar d = c) : Writes quote c ['\\', d]

theorem unescape_cons {c : Char} {cs : List Char} (hc : c ≠ '\\') :
    unescape (c :: cs) = c :: unescape cs := by
  rw [unescape]
  exact fun d rest h => absurd h hc

/-- A body that writes a text has the text as its value. -/
theorem Body.of_writes {quote : Char} {s : List Char} {spellings : List (List Char)}
    (h : List.Forall₂ (Writes quote) s spellings) :
    Body quote spellings.flatten ∧ unescape spellings.flatten = s := by
  induction h with
  | nil => exact ⟨.nil, rfl⟩
  | @cons c spelling s spellings hc _ ih =>
    obtain ⟨hbody, hvalue⟩ := ih
    cases hc with
    | plain hquote hescape =>
      refine ⟨.plain hquote hescape hbody, ?_⟩
      rw [List.flatten_cons, List.singleton_append, unescape_cons hescape, hvalue]
    | escape hd hc =>
      refine ⟨.escape hd hbody, ?_⟩
      rw [← hc, ← hvalue]
      rfl

theorem writes_escape (q : Quote) (byLetter : Bool) (c : Char) :
    Writes q.char c (q.escape byLetter c) := by
  unfold Quote.escape
  split
  · rename_i l hl
    -- Each of the letters stands for its character again.
    cases byLetter with
    | false => exact nomatch hl
    | true =>
      simp only [if_true] at hl
      unfold Quote.letter? at hl
      split at hl
      case h_5 => exact nomatch hl
      all_goals
        obtain rfl := Option.some.inj hl
        exact .escape (by decide) rfl
  · split
    · rename_i hc
      obtain rfl | rfl := hc
      · exact .escape (by decide) rfl
      · cases q <;> exact .escape (by decide) rfl
    · rename_i hc
      exact .plain (fun h => hc (.inr h)) fun h => hc (.inl h)

/-- What stands between quotes is one token as a whole. -/
theorem scan_quoted {quote : Char} {body : List Char} (hquote : IsQuote quote)
    (hbody : Body quote body) :
    scan (String.ofList (quote :: (body ++ [quote]))) =
      .ok [⟨.text (String.ofList (unescape body)), 0,
        byteLength (quote :: (body ++ [quote]))⟩] := by
  have hlongest :
      Longest (quote :: (body ++ [quote])) [] (.text (String.ofList (unescape body))) := {
    spells := .text hquote hbody
    longest := fun text' t' _ hprefix => by simpa using hprefix.length_le
    word := fun w hw => by
      constructor
      · rintro rfl
        simp [Token.words] at hw
      · intro h
        have := chars_of_word hw quote (h ▸ List.mem_cons_self)
        rw [(isNameStart_of_quote hquote).1] at this
        exact absurd this Bool.false_ne_true }
  have htiles := Tiles.token hlongest (.nil : Tiles (0 + byteLength _) [] [])
  rw [List.append_nil, Nat.zero_add] at htiles
  rw [scan, String.toList_ofList]
  exact scanFrom_eq_ok_iff.mpr htiles

end Lexeme

namespace Expr

/-- A source that is one string is read as that string. -/
theorem parse_of_text {source s : String} {start stop : Nat}
    (h : Lexeme.scan source = .ok [⟨.text s, start, stop⟩]) :
    parse source = .ok (.literal (.string s)) := by
  have hderives : Derives .expression [⟨.text s, start, stop⟩] (.literal (.string s)) [] :=
    .expression_of_atom (.leaf rfl)
  obtain hread | ⟨hroom, -⟩ := @ofLexemes_of_derives ⟨source.utf8ByteSize, maxDepth⟩ maxDepth _ _
    hderives
  · rw [parse_of_scan h]
    exact hread
  · -- One lexeme meets no limit.
    have hone : 1 ≤ maxDepth := by decide
    exact absurd ⟨hone, hone⟩ hroom

end Expr

/-- Every text has a literal with either quote: it is one token that takes up the whole source,
and its value on every record, with any library or none, is the text. The characters that have a
letter may be written by it. -/
theorem string_literal_value (q : Quote) (byLetter : Bool) (s : String) :
    Lexeme.scan (q.literal byLetter s) =
        .ok [⟨.text s, 0, (q.literal byLetter s).utf8ByteSize⟩] ∧
      ∀ library, ∃ e, Expr.compile (q.literal byLetter s) library = .ok e ∧
        ∀ datum, e.eval library datum = .string s := by
  have hwrites : List.Forall₂ (Lexeme.Writes q.char) s.toList
      (s.toList.map (q.escape byLetter)) := by
    rw [List.forall₂_map_right_iff, List.forall₂_same]
    exact fun c _ => Lexeme.writes_escape q byLetter c
  obtain ⟨hbody, hvalue⟩ := Lexeme.Body.of_writes hwrites
  rw [← List.flatMap_def] at hbody hvalue
  have hscan : Lexeme.scan (q.literal byLetter s) =
      .ok [⟨.text s, 0, (q.literal byLetter s).utf8ByteSize⟩] := by
    rw [Quote.literal, Lexeme.utf8ByteSize_ofList, Lexeme.scan_quoted q.isQuote hbody, hvalue,
      String.ofList_toList]
  refine ⟨hscan, fun library => ⟨.literal (.string s), ?_, fun datum => rfl⟩⟩
  unfold Expr.compile
  rw [Expr.parse_of_text hscan]
  -- A string calls nothing that a library could lack.
  cases library <;> rfl

example : Quote.double.literal true "\"\n" = "\"\\\"\\n\"" := by decide

end Dataflow
