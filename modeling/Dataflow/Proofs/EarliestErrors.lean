import Dataflow.Proofs.ExprParserComplete
import Dataflow.Proofs.ExprReaders
import Dataflow.Proofs.ViablePhrases
import Mathlib.Data.Bool.Basic

/-!
# Syntax errors stand at the earliest place

A reader settles an input (`Settles`) if it looks no further than at the lexeme where it stops, and
if, where it finds something missing, it has read the start of a phrase (`Viable`). This is closed
under putting readers one after the other (`Settles.bind`), so every rule settles its input, by
induction on the levels that are left (`settled_nested`).

An error that the parser reports is therefore the same whatever comes after the place where it
stands. But the parser has no such error for a sentence (`ofLexemes_of_derives`), so nothing that
goes on from there is one.
-/

namespace Dataflow

namespace Expr

/-! ## Settling -/

/-- What a reader makes of an input where some lexemes of a phrase have been read before. Which
lexemes follow the one where it stops makes no difference to it, and where it finds something
missing, all that has been read is the start of a phrase. -/
structure Settles {α : Type} (p : Phrase) (start : List Lexeme) (m : Reader α)
    (input : List Lexeme) : Prop where
  ok : ∀ a rest, m input = .ok (a, rest) → ∃ read, input = read ++ rest ∧
    ∀ other, other.head? = rest.head? → m (read ++ other) = .ok (a, other)
  error : ∀ err, m input = .error err → (∃ offset, err = .tooDeep offset) ∨
    ∃ read rest expected, input = read ++ rest ∧ Viable p (start ++ read) ∧
      ∀ other, other.head? = rest.head? → m (read ++ other) = .error (unexpected expected other)

/-- A rule that is sound for a phrase and settles every input. -/
structure Rule.Settled (p : Phrase) (rule : Rule) : Prop where
  sound : Sound p rule
  settles : ∀ input, Settles p [] rule.reader input

theorem head?_append_congr {read other rest : List Lexeme} (h : other.head? = rest.head?) :
    (read ++ other).head? = (read ++ rest).head? := by
  rw [List.head?_append, List.head?_append, h]

theorem head_cases (P : Lexeme → Prop) (input : List Lexeme) :
    (∃ l rest, input = l :: rest ∧ P l) ∨ ∀ l tail, input = l :: tail → ¬ P l := by
  by_cases h : ∃ l rest, input = l :: rest ∧ P l
  · exact .inl h
  · exact .inr fun l tail hinput hl => h ⟨l, tail, hinput, hl⟩

/-- What holds of a first lexeme holds where the same one is first. -/
theorem forall_head {P : Lexeme → Prop} {input other : List Lexeme}
    (h : ∀ l tail, input = l :: tail → P l) (ho : other.head? = input.head?) :
    ∀ l tail, other = l :: tail → P l := by
  rintro l tail rfl
  obtain ⟨tail', htail⟩ := List.head?_eq_some_iff.mp ho.symm
  exact h l tail' htail

section

variable {α β : Type} {p q : Phrase} {start read input rest : List Lexeme} {m m' : Reader α}
  {f : α → Reader β}

theorem settles_done {a : α}
    (h : ∀ other, other.head? = rest.head? → m (read ++ other) = .ok (a, other)) :
    Settles p start m (read ++ rest) where
  ok b rest' hb := by
    rw [h rest rfl] at hb
    cases hb
    exact ⟨read, rfl, h⟩
  error err herr := by
    rw [h rest rfl] at herr
    exact nomatch herr

theorem settles_end {a : α}
    (h : ∀ other, other.head? = input.head? → m other = .ok (a, other)) :
    Settles p start m input :=
  @settles_done _ p start [] input m a h

theorem settles_missing (expected : Expected) (hv : Viable p start)
    (h : ∀ other, other.head? = input.head? → m other = .error (unexpected expected other)) :
    Settles p start m input where
  ok a rest ha := by
    rw [h input rfl] at ha
    exact nomatch ha
  error err herr := .inr ⟨[], input, expected, rfl, by rwa [List.append_nil], h⟩

theorem settles_deep (offset : Nat) (h : m input = .error (.tooDeep offset)) :
    Settles p start m input where
  ok a rest ha := by
    rw [h] at ha
    exact nomatch ha
  error err herr := by
    rw [h] at herr
    exact .inl ⟨offset, (Except.error.inj herr).symm⟩

/-- After some lexemes a reader may go on as another one. -/
theorem Settles.after (h : Settles p (start ++ read) m' rest)
    (heq : ∀ other, other.head? = rest.head? → m (read ++ other) = m' other) :
    Settles p start m (read ++ rest) where
  ok a rest' ha := by
    rw [heq rest rfl] at ha
    obtain ⟨read', rfl, hother⟩ := h.ok a rest' ha
    refine ⟨read ++ read', by rw [List.append_assoc], fun other ho => ?_⟩
    rw [List.append_assoc, heq _ (head?_append_congr ho)]
    exact hother other ho
  error err herr := by
    rw [heq rest rfl] at herr
    refine (h.error err herr).imp_right fun ⟨read', rest', expected, hrest, hv, hother⟩ => ?_
    subst hrest
    refine ⟨read ++ read', rest', expected, by rw [List.append_assoc], ?_, fun other ho => ?_⟩
    · rwa [← List.append_assoc]
    · rw [List.append_assoc, heq _ (head?_append_congr ho)]
      exact hother other ho

theorem Settles.cons {l : Lexeme} (h : Settles p (start ++ [l]) m' rest)
    (heq : ∀ other, other.head? = rest.head? → m (l :: other) = m' other) :
    Settles p start m (l :: rest) :=
  h.after heq

/-- Readers that are the same for what starts alike settle the same. -/
theorem Settles.congr (h : Settles p start m' input)
    (heq : ∀ other, other.head? = input.head? → m other = m' other) : Settles p start m input := by
  rw [← List.append_nil start] at h
  exact h.after heq

/-- What starts one phrase may start another where something has been read before. -/
theorem Settles.mono (h : Settles q [] m input)
    (hv : ∀ read, Viable q read → Viable p (start ++ read)) : Settles p start m input where
  ok := h.ok
  error err herr := (h.error err herr).imp_right
    fun ⟨read, rest, expected, hinput, hread, hother⟩ =>
      ⟨read, rest, expected, hinput, hv read hread, hother⟩

/-- Readers settle an input one after the other. -/
theorem Settles.bind (hm : Settles p start m input)
    (hf : ∀ a read rest, input = read ++ rest → m input = .ok (a, rest) →
      Settles p (start ++ read) (f a) rest) : Settles p start (m >>= f) input := by
  cases hx : m input with
  | ok r =>
    obtain ⟨a, rest⟩ := r
    obtain ⟨read, rfl, hother⟩ := hm.ok a rest hx
    -- The second reader goes on from where the first one stops, which no later lexeme changes.
    exact (hf a read rest rfl hx).after fun other ho => bind_of_ok (hother other ho)
  | error e =>
    constructor
    · intro b rest hb
      rw [bind_of_error hx] at hb
      exact nomatch hb
    · intro err herr
      rw [bind_of_error hx] at herr
      obtain rfl := Except.error.inj herr
      refine (hm.error _ hx).imp_right fun ⟨read, rest, expected, hinput, hv, hother⟩ => ?_
      exact ⟨read, rest, expected, hinput, hv, fun other ho => bind_of_error (hother other ho)⟩

/-! ## Single steps -/

theorem settles_pure {a : α} : Settles p start (pure a) input :=
  settles_end fun _ _ => rfl

theorem settles_next_bind {kind : Token → Option α} {expected : Expected} (hv : Viable p start)
    (hf : ∀ l a rest, input = l :: rest → kind l.token = some a →
      Settles p (start ++ [l]) (f a) rest) :
    Settles p start (next kind expected >>= f) input := by
  obtain ⟨l, rest, rfl, a, hl⟩ | hnone := head_cases (fun l => ∃ a, kind l.token = some a) input
  · exact (hf l a rest rfl hl).cons fun other _ => bind_of_ok (next_some hl)
  · have hkind : ∀ l tail, input = l :: tail → kind l.token = none := fun l tail hinput =>
      Option.eq_none_iff_forall_ne_some.mpr fun a hl => hnone l tail hinput ⟨a, hl⟩
    exact settles_missing expected hv fun other ho =>
      bind_of_error (next_none (forall_head hkind ho))

theorem settles_skip_bind {token : Token} {expected : Expected} {f : Unit → Reader β}
    (hv : Viable p start)
    (hf : ∀ l rest, input = l :: rest → l.token = token → Settles p (start ++ [l]) (f ()) rest) :
    Settles p start (skip token expected >>= f) input := by
  refine settles_next_bind hv fun l _ rest hinput hl => hf l rest hinput ?_
  split at hl
  · assumption
  · exact nomatch hl

theorem settles_grown_bind {bounds : Bounds} {child : Nat} {f : Nat → Reader β}
    (hf : ∀ depth, Settles p start (f depth) input) :
    Settles p start (grown bounds child >>= f) input := by
  by_cases hchild : child < bounds.height
  · refine (hf (child + 1)).congr fun other _ => ?_
    rw [grown_bind, grow, if_pos hchild]
    rfl
  · refine settles_deep (position bounds.finish input) ?_
    rw [grown_bind, grow, if_neg hchild]
    rfl

/-- What a rule reads is derived, and what it has read where it fails starts its phrase. -/
theorem Rule.Settled.bind {rule : Rule} (h : rule.Settled q) {f : Expr × Nat → Reader β}
    (hv : ∀ read, Viable q read → Viable p (start ++ read))
    (hf : ∀ e depth read rest, input = read ++ rest → Derives q read e [] →
      Settles p (start ++ read) (f (e, depth)) rest) :
    Settles p start (rule.reader >>= f) input := by
  refine ((h.settles input).mono hv).bind fun ⟨e, depth⟩ read rest hinput hread => ?_
  obtain ⟨hshort, hrule⟩ := reader_eq_ok.mp hread
  have hderives : Derives q input e rest := h.sound input _ hrule
  rw [hinput] at hderives
  exact hf e depth read rest hinput hderives.whole

end

section

variable {bounds : Bounds} {expression : Rule} {close : Token} {expected : Expected}
  {start input : List Lexeme}

/-! ## Atoms and what follows them -/

theorem settles_listing (hexpr : expression.Settled .expression) {read : List Expr} {depth : Nat}
    (hstart : ∀ read, Viable .items read → Viable .items (start ++ read)) :
    Settles .items start (listing expression close expected read depth) input := by
  -- Where the loop goes on, it has read a comma, after which another item may start.
  induction hlen : input.length using Nat.strongRecOn generalizing input start read depth with
  | ind n ih =>
    rw [listing_eq]
    refine hexpr.bind (fun r hr => hstart r hr.last) fun e itemDepth itemRead rest heq he => ?_
    refine settles_next_bind (hstart _ he.viable.last) fun l more tail htail hl => ?_
    cases more with
    | false => exact settles_pure
    | true =>
      have hcomma := eq_comma_of_separator? hl
      subst heq htail
      refine ih tail.length (by simp [← hlen]; omega) (fun r hr => ?_) rfl
      have hmore := hstart _ (hr.more he hcomma)
      simpa using hmore

theorem settles_listed (hexpr : expression.Settled .expression) :
    Settles .list [] (listed expression close expected) input := by
  have hitems : Settles .list [] (listing expression close expected [] 0) input :=
    (settles_listing hexpr fun _ h => by rwa [List.nil_append]).mono fun _ h => h.list
  -- An empty list is read at once, and whether it is empty shows at its first lexeme.
  obtain ⟨l, rest, rfl, hl⟩ | hnone := head_cases (·.token = close) input
  · exact @settles_done _ .list [] [l] rest _ _ fun other _ => listed_close hl
  · exact hitems.congr fun other ho => listed_items (forall_head hnone ho)

/-- A token that is an atom on its own, or the name of a call if a parenthesis follows. -/
theorem settles_leaf (hexpr : expression.Settled .expression) {l : Lexeme} {rest : List Lexeme}
    {e : Expr} (hleaf : l.token.leaf? = some e) :
    Settles .atom [] (atom bounds expression).reader (l :: rest) := by
  by_cases hcall : ∃ id, l.token = .name id ∧ rest.head?.map Lexeme.token = some .openParen
  · obtain ⟨id, hl, hopen⟩ := hcall
    cases rest with
    | nil => exact nomatch hopen
    | cons o rest =>
      have ho := Option.some.inj hopen
      show Settles .atom [] _ ([l, o] ++ rest)
      refine Settles.after ?_ fun other _ => atom_call hl ho
      refine ((settles_listed hexpr).mono fun r hr => hr.call hl ho).bind fun _ _ _ _ _ => ?_
      exact settles_grown_bind fun depth => settles_pure
  · refine @settles_done _ .atom [] [l] rest _ (e, 1) fun other ho => atom_leaf hleaf ?_
    intro id hl hopen
    exact hcall ⟨id, hl, (congrArg (Option.map Lexeme.token) ho).symm.trans hopen⟩

theorem settled_atom (hexpr : expression.Settled .expression) :
    Rule.Settled .atom (atom bounds expression) := by
  refine ⟨sound_atom hexpr.sound, fun input => ?_⟩
  obtain ⟨l, rest, rfl, hl⟩ | hnone := head_cases (fun l => startsAtom l.token = true) input
  · unfold startsAtom at hl
    split at hl
    · rename_i hparen
      refine Settles.cons ?_ fun other _ => atom_group hparen
      refine hexpr.bind (fun r hr => hr.group hparen) fun e depth read rest _ he => ?_
      exact settles_skip_bind (he.viable.group hparen) fun c rest _ hc => settles_pure
    · rename_i hbracket
      refine Settles.cons ?_ fun other _ => atom_array hbracket
      refine ((settles_listed hexpr).mono fun r hr => hr.array hbracket).bind fun _ _ _ _ _ => ?_
      exact settles_grown_bind fun depth => settles_pure
    · obtain ⟨e, hleaf⟩ := Option.isSome_iff_exists.mp hl
      exact settles_leaf hexpr hleaf
  · have hstarts : ∀ l tail, input = l :: tail → startsAtom l.token = false :=
      fun l tail hinput => Bool.eq_false_of_not_eq_true (hnone l tail hinput)
    exact settles_missing .expression viable_atom fun other ho =>
      atom_none (forall_head hstarts ho)

theorem settles_selecting (hexpr : expression.Settled .expression) {object : Expr} {depth : Nat}
    (hobject : Derives .selection start object []) :
    Settles .selection start (selecting bounds expression object depth) input := by
  -- The loop goes on from a longer selection, which is derived as well.
  induction hlen : input.length using Nat.strongRecOn generalizing input start object depth with
  | ind n ih =>
    obtain ⟨l, rest, rfl, hdot | hopen⟩ | hnone :=
      head_cases (fun l => l.token = .dot ∨ l.token = .openBracket) input
    · refine Settles.cons ?_ fun other _ => selecting_dot hdot
      have hv : Viable .selection (start ++ [l]) :=
        ⟨[lexeme (.name "")], _, hobject.dotted hdot rfl⟩
      refine settles_next_bind hv fun p id tail htail hp => settles_grown_bind fun depth => ?_
      subst htail
      have hp := propertyName?_eq_some.mp hp
      have hshorter : tail.length < n := by
        simp only [← hlen, List.length_cons]
        omega
      exact ih tail.length hshorter (hobject.dotted hdot hp) rfl
    · refine Settles.cons ?_ fun other _ => selecting_bracket hopen
      refine hexpr.bind (fun r hr => hr.index hobject hopen) fun e _ read rest' hrest he => ?_
      have hv : Viable .selection (start ++ [l] ++ read) :=
        ⟨[lexeme .closeBracket], _, hobject.indexed hopen he rfl⟩
      refine settles_skip_bind hv fun c tail htail hc => settles_grown_bind fun depth => ?_
      subst hrest htail
      exact ih tail.length (by simp [← hlen]; omega) (hobject.indexed hopen he hc) rfl
    · have hend : ∀ l tail, input = l :: tail → l.token ≠ .dot ∧ l.token ≠ .openBracket :=
        fun l tail hinput => not_or.mp (hnone l tail hinput)
      exact settles_end fun other ho => selecting_end (forall_head hend ho)

theorem settled_selected (hexpr : expression.Settled .expression) :
    Rule.Settled .selection (selected bounds expression) := by
  refine ⟨sound_selected hexpr.sound, fun input => ?_⟩
  rw [selected_reader]
  refine (settled_atom hexpr).bind (fun r hr => hr.mono fun _ e h => ⟨e, .atom h⟩) ?_
  exact fun e depth read rest _ he => settles_selecting hexpr (.atom he)

/-! ## Operators -/

theorem settles_joining {k : Nat} {operators : Operators} {operand : Rule}
    (hk : operatorLevels[k]? = some operators) (hoperand : operand.Settled (.chain (k + 1)))
    {left : Expr} {depth : Nat} (hleft : Derives (.chain k) start left []) :
    Settles (.chain k) start (joining bounds operand operators left depth) input := by
  -- The loop goes on from a longer chain, which is derived as well.
  induction hlen : input.length using Nat.strongRecOn generalizing input start left depth with
  | ind n ih =>
    obtain ⟨l, rest, rfl, op, hop⟩ | hnone :=
      head_cases (fun l => ∃ op, operators l.token = some op) input
    · obtain ⟨htoken, hlevel⟩ := (operators_eq_some hk).mp hop
      refine Settles.cons ?_ fun other _ => joining_operator hop
      refine hoperand.bind (fun r hr => hr.operand hleft htoken hlevel) ?_
      refine fun right _ read rest' hrest hright => settles_grown_bind fun depth => ?_
      subst hrest
      have hshorter : rest'.length < n := by
        simp only [← hlen, List.length_cons, List.length_append]
        omega
      exact ih rest'.length hshorter (hleft.operated htoken hlevel hright) rfl
    · have hend : ∀ l tail, input = l :: tail → operators l.token = none := fun l tail hinput =>
        Option.eq_none_iff_forall_ne_some.mpr fun op hop => hnone l tail hinput ⟨op, hop⟩
      exact settles_end fun other ho => joining_end (forall_head hend ho)

theorem settled_level {k : Nat} {operators : Operators} {operand : Rule}
    (hk : operatorLevels[k]? = some operators) (hoperand : operand.Settled (.chain (k + 1))) :
    Rule.Settled (.chain k) (level bounds operators operand) := by
  have hlt : k < BinaryOp.levels := (List.getElem?_eq_some_iff.mp hk).1
  refine ⟨sound_level hk hoperand.sound, fun input => ?_⟩
  rw [level_reader]
  refine hoperand.bind (fun r hr => hr.mono fun _ e h => ⟨e, .tighter hlt h⟩) ?_
  exact fun e depth read rest _ he => settles_joining hk hoperand (.tighter hlt he)

theorem settled_chainFrom {prefixed : Rule} (hprefixed : prefixed.Settled .prefixed) {k : Nat}
    (hk : k ≤ BinaryOp.levels) : Rule.Settled (.chain k) (chainFrom bounds prefixed k) := by
  -- Induction on the levels that are tighter.
  obtain ⟨n, hn⟩ := Nat.exists_eq_add_of_le hk
  induction n generalizing k with
  | zero =>
    obtain rfl : BinaryOp.levels = k := hn
    refine ⟨sound_chainFrom hprefixed.sound hk, fun input => ?_⟩
    exact (hprefixed.settles input).mono fun r hr => hr.mono fun _ e h => ⟨e, .operand h⟩
  | succ n ih =>
    have hlt : k < BinaryOp.levels := by omega
    obtain ⟨operators, hsome⟩ := exists_operators hlt
    rw [chainFrom_of_some hsome]
    exact settled_level hsome (ih hlt (by omega))

/-! ## Expressions and prefixed operands -/

theorem settles_choosing (hexpr : expression.Settled .expression) {test : Expr} {depth : Nat}
    (htest : Derives (.chain 0) start test []) :
    Settles .expression start (choosing bounds expression (test, depth)) input := by
  obtain ⟨q, rest, rfl, hq⟩ | hnone := head_cases (·.token = .question) input
  · refine Settles.cons ?_ fun other _ => choosing_question hq
    refine hexpr.bind (fun r hr => hr.yes htest hq) fun yes _ yesRead _ _ hyes => ?_
    refine settles_skip_bind (hyes.viable.yes htest hq) fun c _ _ hc => ?_
    refine hexpr.bind (fun r hr => hr.no htest hq hyes hc) fun no _ _ _ _ _ => ?_
    exact settles_grown_bind fun depth => settles_pure
  · exact settles_end fun other ho => choosing_end (forall_head hnone ho)

theorem settled_choice {chain : Rule} (hchain : chain.Settled (.chain 0))
    (hexpr : expression.Settled .expression) :
    Rule.Settled .expression (choice bounds chain expression) := by
  refine ⟨sound_choice hchain.sound hexpr.sound, fun input => ?_⟩
  rw [choice_reader]
  refine hchain.bind (fun r hr => hr.mono fun _ e h => ⟨e, .chain h⟩) ?_
  exact fun test depth read rest _ htest => settles_choosing hexpr htest

theorem settled_withPrefixes {inner selected : Rule} (hinner : inner.Settled .prefixed)
    (hselected : selected.Settled .selection) :
    Rule.Settled .prefixed (withPrefixes bounds inner selected) := by
  refine ⟨sound_withPrefixes hinner.sound hselected.sound, fun input => ?_⟩
  obtain ⟨l, rest, rfl, op, hl⟩ | hnone :=
    head_cases (fun l => ∃ op, l.token = UnaryOp.token op) input
  · refine Settles.cons ?_ fun other _ => withPrefixes_operator hl
    refine hinner.bind (fun r hr => hr.prefixed hl) fun e depth read rest _ _ => ?_
    exact settles_grown_bind fun depth => settles_pure
  · have hother : ∀ l tail, input = l :: tail → ∀ op : UnaryOp, l.token ≠ op.token :=
      fun l tail hinput op hl => hnone l tail hinput ⟨op, hl⟩
    refine Settles.congr ?_ fun other ho => withPrefixes_other (forall_head hother ho)
    exact (hselected.settles input).mono fun r hr => hr.mono fun _ e h => ⟨e, .selection h⟩

end

/-! ## Nesting -/

theorem settled_exhausted (p : Phrase) (bounds : Bounds) : Rule.Settled p (exhausted bounds) :=
  ⟨sound_exhausted p bounds, fun input => settles_deep (position bounds.finish input) rfl⟩

theorem settled_nested (bounds : Bounds) (levels : Nat) :
    Rule.Settled .expression (expression bounds levels) ∧
      Rule.Settled .prefixed (prefixed bounds levels) := by
  induction levels with
  | zero =>
    have hexpr : Rule.Settled .expression (expression bounds 0) := by
      rw [expression]
      exact settled_exhausted _ bounds
    refine ⟨hexpr, ?_⟩
    rw [prefixed]
    exact settled_withPrefixes (settled_exhausted _ bounds) (settled_selected hexpr)
  | succ levels ih =>
    have hexpr : Rule.Settled .expression (expression bounds (levels + 1)) := by
      rw [expression]
      exact settled_choice (settled_chainFrom ih.2 (Nat.zero_le _)) ih.1
    refine ⟨hexpr, ?_⟩
    rw [prefixed]
    exact settled_withPrefixes ih.2 (settled_selected hexpr)

/-! ## Whole texts -/

/-- Nothing may be left of a whole text. -/
def endOfText : Reader Unit
  | [] => .ok ((), [])
  | l :: rest => .error (unexpected .endOfExpression (l :: rest))

theorem settles_endOfText {p : Phrase} {start input : List Lexeme} (hv : Viable p start) :
    Settles p start endOfText input := by
  cases input with
  | nil =>
    refine settles_end (a := ()) fun other ho => ?_
    rw [List.head?_eq_none_iff.mp ho]
    rfl
  | cons l rest =>
    refine settles_missing .endOfExpression hv fun other ho => ?_
    obtain ⟨tail, rfl⟩ := List.head?_eq_some_iff.mp ho
    rfl

theorem map_ofLexemes (bounds : Bounds) (levels : Nat) (input : List Lexeme) :
    (ofLexemes bounds levels input).map (·, []) = (do
      let whole ← (expression bounds levels).reader
      endOfText
      return whole.1) input := by
  rw [reader_bind, ofLexemes, map_bind]
  refine bind_congr fun whole => ?_
  obtain ⟨e, depth, rest, hshort⟩ := whole
  cases rest <;> rfl

/-- An error of the parser that no limit is the reason for stands where nothing makes a difference
that comes after, and what stands before it starts an expression. -/
theorem ofLexemes_error {bounds : Bounds} {levels : Nat} {input : List Lexeme} {err : SyntaxError}
    (h : ofLexemes bounds levels input = .error err) (hdeep : ∀ offset, err ≠ .tooDeep offset) :
    ∃ read rest expected, input = read ++ rest ∧ Viable .expression read ∧
      ∀ other, other.head? = rest.head? →
        ofLexemes bounds levels (read ++ other) = .error (unexpected expected other) := by
  have hexpr := (settled_nested bounds levels).1
  have hsettles : Settles .expression [] (do
      let whole ← (expression bounds levels).reader
      endOfText
      return whole.1 : Reader Expr) input :=
    hexpr.bind (fun r hr => by rwa [List.nil_append]) fun e depth read rest _ he =>
      (settles_endOfText (by simpa using he.viable)).bind fun _ _ _ _ _ => settles_pure
  have herror : ∀ {input e}, ofLexemes bounds levels input = .error e ↔
      (ofLexemes bounds levels input).map (·, ([] : List Lexeme)) = .error e := by
    intro input e
    cases ofLexemes bounds levels input <;> simp [Except.map]
  rw [herror, map_ofLexemes] at h
  obtain ⟨offset, rfl⟩ | ⟨read, rest, expected, hinput, hv, hother⟩ := hsettles.error err h
  · exact absurd rfl (hdeep offset)
  · refine ⟨read, rest, expected, hinput, by simpa using hv, fun other ho => ?_⟩
    rw [herror, map_ofLexemes]
    exact hother other ho

/-- Where something is missing, there is no sentence. -/
theorem not_derives_of_error {bounds : Bounds} {levels : Nat} {input rest : List Lexeme}
    {expected : Expected} (h : ofLexemes bounds levels input = .error (unexpected expected rest))
    (e : Expr) : ¬ Derives .expression input e [] := by
  intro hderives
  -- A sentence is read or meets a limit, and neither is this error.
  obtain hread | ⟨-, offset, hdeep⟩ := @ofLexemes_of_derives bounds levels _ _ hderives
  · rw [hread] at h
    exact nomatch h
  · rw [hdeep] at h
    cases rest <;> exact nomatch Except.error.inj h

/-- Syntax errors stand at the earliest place. Where the parser finds a token that it does not
expect, the tokens before are the start of a sentence, and with this token they are not; where it
finds the end, all tokens together are the start of a sentence, but not one yet. -/
theorem errors_at_earliest_place (source : String) (lexemes : List Lexeme) (err : SyntaxError)
    (hscan : Lexeme.scan source = .ok lexemes) (hparse : parse source = .error err)
    (hdeep : ∀ offset, err ≠ .tooDeep offset) :
    (∃ before found after expected, lexemes = before ++ found :: after ∧
      err = .unexpected found.token expected found.start ∧
      (∃ more, Sentence (before.map Lexeme.token ++ more)) ∧
      ∀ more, ¬ Sentence (before.map Lexeme.token ++ found.token :: more)) ∨
    ∃ expected, err = .unexpectedEnd expected ∧
      (∃ more, more ≠ [] ∧ Sentence (lexemes.map Lexeme.token ++ more)) ∧
      ¬ Sentence (lexemes.map Lexeme.token) := by
  have hread : ofLexemes ⟨source.utf8ByteSize, maxDepth⟩ maxDepth lexemes = .error err :=
    (parse_of_scan hscan).symm.trans hparse
  obtain ⟨read, rest, expected, rfl, ⟨more, e, hmore⟩, hother⟩ := ofLexemes_error hread hdeep
  have herr : err = unexpected expected rest := by
    rw [hother rest rfl] at hread
    exact (Except.error.inj hread).symm
  have hsentence : Sentence (read.map Lexeme.token ++ more.map Lexeme.token) :=
    ⟨read ++ more, e, List.map_append, hmore⟩
  cases rest with
  | cons found after =>
    -- A sentence that goes on with the token would be refused at the token as well.
    refine .inl ⟨read, found, after, expected, rfl, herr, ⟨_, hsentence⟩, fun more' hbad => ?_⟩
    have hmap : (read ++ found :: more'.map lexeme).map Lexeme.token =
        read.map Lexeme.token ++ found.token :: more' := by
      simp [lexeme, Function.comp_def]
    rw [← hmap, sentence_map] at hbad
    obtain ⟨e', hderives⟩ := hbad
    exact not_derives_of_error (hother (found :: more'.map lexeme) rfl) e' hderives
  | nil =>
    -- All tokens have been read, so the rest of the sentence is more than nothing.
    have hnone : ¬ Sentence (read.map Lexeme.token) := by
      rw [sentence_map]
      rintro ⟨e', hderives⟩
      have herror := hother [] rfl
      rw [List.append_nil] at herror
      exact not_derives_of_error herror e' hderives
    rw [List.append_nil]
    refine .inr ⟨expected, herr, ⟨_, fun hnil => ?_, hsentence⟩, hnone⟩
    rw [hnil, List.append_nil] at hsentence
    exact hnone hsentence

/-- A name after a name goes on with no sentence, and an open parenthesis is the start of one. -/
theorem errors_at_earliest_place_names :
    parse "a b" = .error (.unexpected (.name "b") .endOfExpression 2) ∧
      (∃ more, Sentence ([.name "a"] ++ more)) ∧
      (∀ more, ¬ Sentence ([.name "a"] ++ .name "b" :: more)) ∧
      parse "(a" = .error (.unexpectedEnd .closeParen) ∧
      (∃ more, more ≠ [] ∧ Sentence ([.openParen, .name "a"] ++ more)) := by
  have hscan : Lexeme.scan "a b" = .ok [⟨.name "a", 0, 1⟩, ⟨.name "b", 2, 3⟩] := by
    decide +kernel
  have hparse : parse "a b" = .error (.unexpected (.name "b") .endOfExpression 2) := by
    rw [parse_of_scan hscan, show "a b".utf8ByteSize = 3 from rfl]
    cbv
  have hscan' : Lexeme.scan "(a" = .ok [⟨.openParen, 0, 1⟩, ⟨.name "a", 1, 2⟩] := by
    decide +kernel
  have hparse' : parse "(a" = .error (.unexpectedEnd .closeParen) := by
    rw [parse_of_scan hscan', show "(a".utf8ByteSize = 2 from rfl]
    cbv
  obtain ⟨before, found, _, _, hlexemes, herr, hstart, hnone⟩ | ⟨_, herr, -⟩ :=
    errors_at_earliest_place "a b" _ _ hscan hparse (by simp)
  · -- The token of the error tells which of the two lexemes it is about.
    have hfound : .name "b" = found.token := (SyntaxError.unexpected.inj herr).1
    obtain rfl : before = [⟨.name "a", 0, 1⟩] := by
      obtain _ | ⟨l, _ | ⟨l', before⟩⟩ := before
      · obtain ⟨rfl, -⟩ := List.cons.inj hlexemes
        exact absurd hfound (by decide)
      · rw [(List.cons.inj hlexemes).1]
      · simp at hlexemes
    obtain ⟨_, _, _, _, -, herr', -⟩ | ⟨_, -, hmore, -⟩ :=
      errors_at_earliest_place "(a" _ _ hscan' hparse' (by simp)
    · cases herr'
    · rw [← hfound] at hnone
      exact ⟨hparse, hstart, hnone, hparse', hmore⟩
  · cases herr

end Expr

end Dataflow
