import Dataflow.Proofs.ExprParserLimits
import Dataflow.Proofs.ExprParserSound
import Mathlib.Data.List.Basic

/-!
# What is derived, the parser reads

The parser cannot look ahead far, but where a phrase ends it need not: nothing that may follow a
phrase in a derivation is a token with which the parser would read on (`Phrase.Stops`). So it reads
what is derived, by induction on the derivation (`goal_of_derives`), unless it meets a limit
(`Reads`). A limit is only met where the input is longer than it (`Room`), since every level of
nesting, and every step towards the top of a tree, is paid for by a lexeme.

The grammar joins operators and members on the left, whereas the parser reads them in loops. So for
these phrases the induction does not say that a loop ends with the tree, but that it comes by it on
its way (`Arrives`).

* `ofLexemes_eq_ok_iff`: where there is room, the parser and the grammar agree
* `Derives.unique`: the grammar is unambiguous
* `parse_exact`: what `parse` makes of a text
-/

namespace Dataflow

namespace Expr

/-! ## Where a phrase ends -/

/-- The tokens with which the parser would read on after a phrase. -/
def Phrase.Extends : Phrase → Token → Prop
  | .atom, t => t = .openParen
  | .selection, t => t = .openParen ∨ t = .dot ∨ t = .openBracket
  | .prefixed, t => t = .openParen ∨ t = .dot ∨ t = .openBracket
  | .chain k, t => t = .openParen ∨ t = .dot ∨ t = .openBracket ∨
      ∃ op : BinaryOp, t = op.token ∧ k ≤ op.level
  | .expression, t => t = .openParen ∨ t = .dot ∨ t = .openBracket ∨
      (∃ op : BinaryOp, t = op.token) ∨ t = .question
  | .list, _ => False
  | .items, _ => False

/-- Nothing follows with which the parser would read on after the phrase. -/
def Phrase.Stops (p : Phrase) (rest : List Lexeme) : Prop :=
  ∀ l tail, rest = l :: tail → ¬ p.Extends l.token

theorem Phrase.Stops.mono {p q : Phrase} {rest : List Lexeme} (h : p.Stops rest)
    (hq : ∀ t, q.Extends t → p.Extends t) : q.Stops rest :=
  fun l tail hl he => h l tail hl (hq l.token he)

theorem Phrase.stops_cons {p : Phrase} {l : Lexeme} {tail : List Lexeme}
    (h : ¬ p.Extends l.token) : p.Stops (l :: tail) := by
  intro l' tail' heq
  cases heq
  exact h

theorem Phrase.stops_nil (p : Phrase) : p.Stops [] := fun _ _ h => nomatch h

/-- Closing brackets, commas and colons end every phrase. -/
theorem Phrase.not_extends {p : Phrase} {t : Token}
    (ht : t = .closeParen ∨ t = .closeBracket ∨ t = .comma ∨ t = .colon) : ¬ p.Extends t := by
  have hop : ∀ op : BinaryOp, t ≠ op.token := by
    intro op
    obtain rfl | rfl | rfl | rfl := ht <;> cases op <;> exact fun h => nomatch h
  have hother : t ≠ .openParen ∧ t ≠ .dot ∧ t ≠ .openBracket ∧ t ≠ .question := by
    obtain rfl | rfl | rfl | rfl := ht <;> simp
  obtain ⟨hparen, hdot, hbracket, hquestion⟩ := hother
  cases p with
  | chain k => simp [Extends, hparen, hdot, hbracket, hop]
  | _ => simp [Extends, hparen, hdot, hbracket, hquestion, hop]

theorem Phrase.stops_of_closing {p : Phrase} {l : Lexeme} {tail : List Lexeme}
    (hl : l.token = .closeParen ∨ l.token = .closeBracket ∨ l.token = .comma ∨ l.token = .colon) :
    p.Stops (l :: tail) :=
  Phrase.stops_cons (Phrase.not_extends hl)

theorem Phrase.not_extends_question (k : Nat) : ¬ (Phrase.chain k).Extends .question := by
  rintro (h | h | h | ⟨op, h, -⟩)
  · exact nomatch h
  · exact nomatch h
  · exact nomatch h
  · cases op <;> exact nomatch h

/-- An operator ends the chains of tighter levels. -/
theorem Phrase.not_extends_operator (op : BinaryOp) :
    ¬ (Phrase.chain (op.level + 1)).Extends op.token := by
  rintro (h | h | h | ⟨op', h, hle⟩)
  · cases op <;> exact nomatch h
  · cases op <;> exact nomatch h
  · cases op <;> exact nomatch h
  · rw [BinaryOp.token_injective h] at hle
    exact absurd hle (Nat.not_succ_le_self _)

section

variable {k : Nat} {rest : List Lexeme}

theorem Phrase.Stops.chain (h : Phrase.expression.Stops rest) : (Phrase.chain k).Stops rest := by
  refine h.mono fun t ht => ?_
  obtain ht | ht | ht | ⟨op, ht, -⟩ := ht
  · exact .inl ht
  · exact .inr (.inl ht)
  · exact .inr (.inr (.inl ht))
  · exact .inr (.inr (.inr (.inl ⟨op, ht⟩)))

theorem Phrase.Stops.tighter (h : (Phrase.chain k).Stops rest) :
    (Phrase.chain (k + 1)).Stops rest := by
  refine h.mono fun t ht => ?_
  obtain ht | ht | ht | ⟨op, ht, hle⟩ := ht
  · exact .inl ht
  · exact .inr (.inl ht)
  · exact .inr (.inr (.inl ht))
  · exact .inr (.inr (.inr ⟨op, ht, Nat.le_of_succ_le hle⟩))

theorem Phrase.Stops.prefixed (h : (Phrase.chain k).Stops rest) : Phrase.prefixed.Stops rest := by
  refine h.mono fun t ht => ?_
  obtain ht | ht | ht := ht
  · exact .inl ht
  · exact .inr (.inl ht)
  · exact .inr (.inr (.inl ht))

theorem Phrase.Stops.atom (h : Phrase.selection.Stops rest) : Phrase.atom.Stops rest :=
  h.mono fun _ ht => .inl ht

end

/-! ## Outcomes -/

/-- The input is no longer than either limit. -/
def Room (bounds : Bounds) (levels : Nat) (input : List Lexeme) : Prop :=
  input.length ≤ levels ∧ input.length ≤ bounds.height

/-- A result is what `next` makes of the rest, at a depth for which the lexemes read so far
account, unless a limit has been met. Where there is room, none is. -/
def Arrives {n : Nat} (x : Except SyntaxError (Parsed n)) (room : Prop) (rest : List Lexeme)
    (next : (depth : Nat) → rest.length < n → Except SyntaxError (Parsed n)) : Prop :=
  (∃ depth h, depth + rest.length ≤ n ∧ x = next depth h) ∨
    (¬ room ∧ ∃ offset, x = .error (.tooDeep offset))

/-- A result is the tree, with the rest left over. -/
def Reads {n : Nat} (x : Except SyntaxError (Parsed n)) (room : Prop) (e : Expr)
    (rest : List Lexeme) : Prop :=
  Arrives x room rest fun depth h => .ok ⟨e, depth, rest, h⟩

theorem Room.inner {bounds : Bounds} {levels levels' : Nat} {input input' : List Lexeme}
    (h : Room bounds levels input) (hlevels : input'.length + levels ≤ input.length + levels')
    (hle : input'.length ≤ input.length) : Room bounds levels' input' :=
  ⟨by have := h.1; omega, by have := h.2; omega⟩

section

variable {n : Nat} {x : Except SyntaxError (Parsed n)} {room : Prop} {rest : List Lexeme}
  {next : (depth : Nat) → rest.length < n → Except SyntaxError (Parsed n)}

/-- What is arrived at may be where another way starts. -/
theorem Arrives.trans {rest' : List Lexeme}
    {next' : (depth : Nat) → rest'.length < n → Except SyntaxError (Parsed n)}
    (h : Arrives x room rest next)
    (hstep : ∀ depth hrest, depth + rest.length ≤ n →
      Arrives (next depth hrest) room rest' next') : Arrives x room rest' next' := by
  obtain ⟨depth, hrest, hle, rfl⟩ | hdeep := h
  · exact hstep depth hrest hle
  · exact .inr hdeep

end

section

variable {m n : Nat} {room room' : Prop} {rest : List Lexeme}
  {next : (depth : Nat) → rest.length < n → Except SyntaxError (Parsed n)}

/-- What is read first is passed on. -/
theorem Reads.bind {x : Except SyntaxError (Parsed m)} {e : Expr} {mid : List Lexeme}
    {f : Parsed m → Except SyntaxError (Parsed n)} (hx : Reads x room e mid) (hroom : room' → room)
    (hf : ∀ depth h, depth + mid.length ≤ m → Arrives (f ⟨e, depth, mid, h⟩) room' rest next) :
    Arrives (x >>= f) room' rest next := by
  obtain ⟨depth, h, hle, rfl⟩ | ⟨hnot, offset, rfl⟩ := hx
  · exact hf depth h hle
  · exact .inr ⟨fun hr => hnot (hroom hr), offset, rfl⟩

/-- A tree over children for which the lexemes account is made, if there is room for it. -/
theorem arrives_grow {bounds : Bounds} {child : Nat} {left : List Lexeme}
    {f : Nat → Except SyntaxError (Parsed n)} (hroom : room → n ≤ bounds.height)
    (hchild : child + rest.length < n)
    (hf : child + 1 + rest.length ≤ n → Arrives (f (child + 1)) room rest next) :
    Arrives (grow bounds child left >>= f) room rest next := by
  unfold grow
  split
  · exact hf (by omega)
  · rename_i h
    refine .inr ⟨fun hr => h ?_, _, rfl⟩
    have := hroom hr
    omega

end

theorem expect_cons {token : Token} {expected : Expected} {l : Lexeme} {rest : List Lexeme}
    (h : l.token = token) :
    expect token expected (l :: rest) = .ok ⟨rest, Nat.lt_succ_self _⟩ := by
  simp only [expect, h, if_true]

/-! ## Chains -/

section

variable {bounds : Bounds} {levels k : Nat} {input rest : List Lexeme} {e : Expr}

/-- How a chain goes on after an operand: at a level of operators with those of the level. -/
def resume (bounds : Bounds) (prefixed : Rule) (k : Nat) (e : Expr) {n : Nat} (rest : List Lexeme)
    (depth : Nat) (h : rest.length < n) : Except SyntaxError (Parsed n) :=
  match operatorLevels[k]? with
  | some operators =>
    joined bounds (chainFrom bounds prefixed (k + 1)) operators n e depth rest h
  | none => .ok ⟨e, depth, rest, h⟩

/-- A chain ends where no operator of its level follows. -/
theorem resume_of_stops {prefixed : Rule} {n depth : Nat} {h : rest.length < n}
    (hstops : (Phrase.chain k).Stops rest) :
    resume bounds prefixed k e rest depth h = .ok ⟨e, depth, rest, h⟩ := by
  unfold resume
  cases hk : operatorLevels[k]? with
  | none => rfl
  | some operators =>
    cases rest with
    | nil =>
      dsimp only
      rw [joined]
    | cons l tail =>
      have hnone : operators l.token = none := by
        cases hop : operators l.token with
        | none => rfl
        | some op =>
          obtain ⟨htoken, hlevel⟩ := (operators_eq_some hk).mp hop
          have hle : k ≤ op.level := Nat.le_of_eq hlevel.symm
          exact absurd (.inr (.inr (.inr ⟨op, htoken, hle⟩))) (hstops l tail rfl)
      dsimp only
      rw [joined]
      simp only [hnone]

/-- A chain to go on from is the whole chain where no operator of its level follows. -/
theorem reads_chain {prefixed : Rule} {room : Prop}
    (h : Arrives (chainFrom bounds prefixed k input) room rest (resume bounds prefixed k e rest))
    (hstops : (Phrase.chain k).Stops rest) :
    Reads (chainFrom bounds prefixed k input) room e rest := by
  refine h.trans fun depth hshort hle => ?_
  rw [resume_of_stops hstops]
  exact .inl ⟨depth, hshort, hle, rfl⟩

/-- An operand of the next level is a chain to go on from. -/
theorem arrives_tighter {prefixed : Rule} {room : Prop} (hk : k < BinaryOp.levels)
    (h : Reads (chainFrom bounds prefixed (k + 1) input) room e rest) :
    Arrives (chainFrom bounds prefixed k input) room rest (resume bounds prefixed k e rest) := by
  obtain ⟨operators, hsome⟩ := exists_operators hk
  rw [chainFrom_of_some hsome]
  unfold level resume
  simp only [hsome]
  exact h.bind (fun hr => hr) fun depth hrest hle => .inl ⟨depth, hrest, hle, rfl⟩

/-- An operator and an operand of the next level go on with a chain. -/
theorem arrives_operation {prefixed : Rule} {room roomRight : Prop} {op : BinaryOp} {l : Lexeme}
    {rightInput : List Lexeme} {left right : Expr} (hl : l.token = op.token)
    (hleft : Arrives (chainFrom bounds prefixed op.level input) room (l :: rightInput)
      (resume bounds prefixed op.level left (l :: rightInput)))
    (hright : Reads (chainFrom bounds prefixed (op.level + 1) rightInput) roomRight right rest)
    (hroomRight : room → roomRight) (hroom : room → input.length ≤ bounds.height) :
    Arrives (chainFrom bounds prefixed op.level input) room rest
      (resume bounds prefixed op.level (.binary op left right) rest) := by
  obtain ⟨operators, hsome⟩ := exists_operators op.level_lt_levels
  have hop : operators l.token = some op := (operators_eq_some hsome).mpr ⟨hl, rfl⟩
  -- The loop goes on from the left side, reads the operand and comes by the whole operation.
  refine hleft.trans fun depth hshort hle => ?_
  have hlen : (l :: rightInput).length = rightInput.length + 1 := List.length_cons
  unfold resume
  simp only [hsome]
  rw [joined_cons hop]
  refine hright.bind hroomRight fun rightDepth hrightShort hrightLe => ?_
  refine arrives_grow hroom (by simp only; omega) fun hle => ?_
  exact .inl ⟨_, Nat.lt_trans hrightShort (by omega), hle, rfl⟩

/-! ## Expressions -/

/-- A chain that no question mark follows is an expression. -/
theorem reads_choice {chain expression : Rule} {room : Prop}
    (h : Reads (chain input) room e rest) (hstops : Phrase.expression.Stops rest) :
    Reads (choice bounds chain expression input) room e rest := by
  refine h.bind (fun hr => hr) fun depth hrest hle => .inl ⟨depth, hrest, hle, ?_⟩
  cases rest with
  | nil => rfl
  | cons l tail =>
    have hq : l.token ≠ .question := fun hq => hstops l tail rfl (.inr (.inr (.inr (.inr hq))))
    show (if l.token = .question then _ else _) = _
    rw [if_neg hq]
    rfl

theorem reads_conditional {chain expression : Rule} {room roomYes roomNo : Prop}
    {yesInput noInput : List Lexeme} {test yes no : Expr} {q c : Lexeme}
    (htest : Reads (chain input) room test (q :: yesInput)) (hq : q.token = .question)
    (hyes : Reads (expression yesInput) roomYes yes (c :: noInput)) (hc : c.token = .colon)
    (hno : Reads (expression noInput) roomNo no rest) (hroomYes : room → roomYes)
    (hroomNo : room → roomNo) (hroom : room → input.length ≤ bounds.height) :
    Reads (choice bounds chain expression input) room (.conditional test yes no) rest := by
  refine htest.bind (fun hr => hr) fun depth hshort hle => ?_
  show Arrives (if q.token = .question then _ else _) _ _ _
  rw [if_pos hq]
  refine hyes.bind hroomYes fun yesDepth hyesShort hyesLe => ?_
  dsimp only
  rw [expect_cons hc]
  refine hno.bind hroomNo fun noDepth hnoShort hnoLe => ?_
  have hlen : (q :: yesInput).length = yesInput.length + 1 := List.length_cons
  have hlen' : (c :: noInput).length = noInput.length + 1 := List.length_cons
  refine arrives_grow hroom (by simp only; omega) fun hle => ?_
  exact .inl ⟨_, Nat.lt_trans hnoShort (by omega), hle, rfl⟩

/-! ## Prefixed operands -/

theorem reads_prefixed {inner selected : Rule} {room roomInner : Prop} {op : UnaryOp} {l : Lexeme}
    (hl : l.token = op.token) (h : Reads (inner input) roomInner e rest)
    (hroomInner : room → roomInner) (hroom : room → (l :: input).length ≤ bounds.height) :
    Reads (withPrefixes bounds inner selected (l :: input)) room (.unary op e) rest := by
  have hlen : (l :: input).length = input.length + 1 := List.length_cons
  unfold withPrefixes
  cases op
  all_goals
    simp only [hl, UnaryOp.token]
    refine h.bind hroomInner fun depth hshort hle => ?_
    refine arrives_grow hroom (by simp only; omega) fun hle => ?_
    exact .inl ⟨_, Nat.lt_trans hshort (by omega), hle, rfl⟩

/-- A selection is an operand without prefixes. -/
theorem reads_selection {inner selected : Rule} {room : Prop} (hd : Derives .selection input e rest)
    (h : Reads (selected input) room e rest) :
    Reads (withPrefixes bounds inner selected input) room e rest := by
  -- A selection starts as an atom does, so its first token is no prefix operator.
  obtain ⟨l, tail, rfl, hstarts⟩ := hd.starts (by simp)
  have hsame : withPrefixes bounds inner selected (l :: tail) = selected (l :: tail) := by
    simp only [withPrefixes]
    split
    · rename_i hl
      rw [hl] at hstarts
      cases hstarts
    · rename_i hl
      rw [hl] at hstarts
      cases hstarts
    · rfl
  rw [hsame]
  exact h

/-! ## Selections -/

/-- A selection ends where neither a dot nor a bracket follows. -/
theorem members_of_stops {expression : Rule} {bound depth : Nat} {object : Expr}
    {h : rest.length < bound} (hstops : Phrase.selection.Stops rest) :
    members bounds expression bound object depth rest h = .ok ⟨object, depth, rest, h⟩ := by
  cases rest with
  | nil => rw [members.eq_def]
  | cons l tail =>
    have hdot : l.token ≠ .dot := fun hl => hstops l tail rfl (.inr (.inl hl))
    have hopen : l.token ≠ .openBracket := fun hl => hstops l tail rfl (.inr (.inr hl))
    rw [members.eq_def]
    simp only [hdot, hopen, if_false]

theorem reads_selected {expression : Rule} {room : Prop}
    (h : Arrives (selected bounds expression input) room rest
      fun depth hrest => members bounds expression input.length e depth rest hrest)
    (hstops : Phrase.selection.Stops rest) :
    Reads (selected bounds expression input) room e rest := by
  refine h.trans fun depth hshort hle => ?_
  rw [members_of_stops hstops]
  exact .inl ⟨depth, hshort, hle, rfl⟩

theorem arrives_atom {expression : Rule} {room : Prop}
    (h : Reads (atom bounds expression input) room e rest) :
    Arrives (selected bounds expression input) room rest
      fun depth hrest => members bounds expression input.length e depth rest hrest :=
  h.bind (fun hr => hr) fun depth hrest hle => .inl ⟨depth, hrest, hle, rfl⟩

theorem arrives_member {expression : Rule} {room : Prop} {object : Expr} {dot l : Lexeme}
    {id : String} (hdot : dot.token = .dot) (hl : l.token = .name id)
    (h : Arrives (selected bounds expression input) room (dot :: l :: rest)
      fun depth hrest => members bounds expression input.length object depth _ hrest)
    (hroom : room → input.length ≤ bounds.height) :
    Arrives (selected bounds expression input) room rest fun depth hrest =>
      members bounds expression input.length (.member object (.literal (.string id))) depth rest
        hrest := by
  refine h.trans fun depth hshort hle => ?_
  have hlen : (dot :: l :: rest).length = rest.length + 2 := by simp
  rw [members_dot hdot hl]
  exact arrives_grow hroom (by omega) fun hle => .inl ⟨_, by omega, hle, rfl⟩

theorem arrives_index {expression : Rule} {room roomProperty : Prop} {object property : Expr}
    {o c : Lexeme} {propertyInput : List Lexeme} (ho : o.token = .openBracket)
    (hc : c.token = .closeBracket)
    (h : Arrives (selected bounds expression input) room (o :: propertyInput)
      fun depth hrest => members bounds expression input.length object depth _ hrest)
    (hproperty : Reads (expression propertyInput) roomProperty property (c :: rest))
    (hroomProperty : room → roomProperty) (hroom : room → input.length ≤ bounds.height) :
    Arrives (selected bounds expression input) room rest fun depth hrest =>
      members bounds expression input.length (.member object property) depth rest hrest := by
  refine h.trans fun depth hshort hle => ?_
  have hlen : (o :: propertyInput).length = propertyInput.length + 1 := List.length_cons
  have hlen' : (c :: rest).length = rest.length + 1 := List.length_cons
  rw [members_bracket ho]
  refine hproperty.bind hroomProperty fun propertyDepth hpropertyShort hpropertyLe => ?_
  dsimp only
  rw [expect_cons hc]
  exact arrives_grow hroom (by omega) fun hle => .inl ⟨_, by omega, hle, rfl⟩

/-! ## Lists -/

/-- A result is the list of items, with the rest left over and no item taller than allowed, unless
a limit has been met. -/
def ReadsList {n : Nat} (x : Except SyntaxError (ParsedList n)) (room : Prop) (es : List Expr)
    (tallest : Nat) (rest : List Lexeme) : Prop :=
  (∃ r, x = .ok r ∧ r.items = es ∧ r.depth ≤ tallest ∧ r.rest = rest) ∨
    (¬ room ∧ ∃ offset, x = .error (.tooDeep offset))

theorem ReadsList.weaken {n : Nat} {x : Except SyntaxError (ParsedList n)} {room room' : Prop}
    {es : List Expr} {tallest : Nat} (h : ReadsList x room es tallest rest)
    (hroom : room' → room) : ReadsList x room' es tallest rest :=
  h.imp (fun h => h) fun ⟨hnot, hx⟩ => ⟨fun hr => hnot (hroom hr), hx⟩

theorem reads_last {expression : Rule} {close : Token} {expected : Expected} {bound depth : Nat}
    {read : List Expr} {room : Prop} {c : Lexeme} (hc : c.token = close) (hcomma : close ≠ .comma)
    (h : Reads (expression input) room e (c :: rest)) (hbound : input.length ≤ bound) :
    ReadsList (items expression close expected bound read depth input hbound) room (read ++ [e])
      (max depth (input.length - (c :: rest).length)) rest := by
  rw [items.eq_def]
  obtain ⟨lastDepth, hshort, hle, hx⟩ | ⟨hnot, offset, hx⟩ := h
  · simp only [hx, hc, hcomma, if_false, if_true]
    refine .inl ⟨_, rfl, rfl, ?_, rfl⟩
    simp only
    omega
  · simp only [hx]
    exact .inr ⟨hnot, offset, rfl⟩

theorem reads_more {expression : Rule} {close : Token} {expected : Expected} {bound depth : Nat}
    {read es : List Expr} {room roomFirst : Prop} {c : Lexeme} {itemsInput after : List Lexeme}
    (hc : c.token = .comma) (h : Reads (expression input) roomFirst e (c :: itemsInput))
    (hroom : room → roomFirst) (hrest : rest.length ≤ itemsInput.length)
    (hitems : ∀ read depth (hbound : itemsInput.length ≤ bound),
      ReadsList (items expression close expected bound read depth itemsInput hbound) room
        (read ++ es) (max depth (itemsInput.length - rest.length)) after)
    (hbound : input.length ≤ bound) :
    ReadsList (items expression close expected bound read depth input hbound) room
      (read ++ e :: es) (max depth (input.length - rest.length)) after := by
  rw [items.eq_def]
  obtain ⟨firstDepth, hshort, hle, hx⟩ | ⟨hnot, offset, hx⟩ := h
  · simp only [hx, hc, if_true]
    have hlen : (c :: itemsInput).length = itemsInput.length + 1 := List.length_cons
    obtain ⟨r, hr, hes, hdepth, hafter⟩ | hdeep :=
      hitems (read ++ [e]) (max depth firstDepth) (by omega)
    · -- The first item and its comma come before the others, so the list is longer than it is tall.
      refine .inl ⟨r, hr, ?_, ?_, hafter⟩
      · rw [hes, List.append_assoc, List.singleton_append]
      · omega
    · exact .inr hdeep
  · simp only [hx]
    exact .inr ⟨fun hr => hnot (hroom hr), offset, rfl⟩

/-- A list without items ends at once. -/
theorem reads_nothing {expression : Rule} {close : Token} {expected : Expected} {room : Prop}
    {c : Lexeme} (hc : c.token = close) :
    ReadsList (list expression close expected (c :: rest)) room [] 0 rest := by
  unfold list
  simp only [hc, if_true]
  exact .inl ⟨_, rfl, rfl, Nat.le_refl _, rfl⟩

/-- A list with items does not start with a closing bracket. -/
theorem reads_something {expression : Rule} {close : Token} {expected : Expected} {room : Prop}
    {es : List Expr} {tallest : Nat} {after : List Lexeme}
    (hd : Derives .items input (.array es) rest) (hclose : Phrase.items.starts close = false)
    (h : ∀ (hbound : input.length ≤ input.length),
      ReadsList (items expression close expected input.length [] 0 input hbound) room es tallest
        after) :
    ReadsList (list expression close expected input) room es tallest after := by
  obtain ⟨l, tail, rfl, hstarts⟩ := hd.starts (by simp)
  have hne : l.token ≠ close := by
    intro hl
    rw [hl, hclose] at hstarts
    exact nomatch hstarts
  unfold list
  simp only [hne, if_false]
  exact h (Nat.le_refl _)

/-! ## Atoms -/

theorem reads_leaf {expression : Rule} {room : Prop} {l : Lexeme}
    (hleaf : l.token.leaf? = some e) (hstops : Phrase.atom.Stops rest) :
    Reads (atom bounds expression (l :: rest)) room e rest := by
  have hshort : rest.length < (l :: rest).length := by simp
  refine .inl ⟨1, hshort, by simp only [List.length_cons]; omega, ?_⟩
  -- A name that a parenthesis follows would be read as a call.
  have hopen : rest.head?.map Lexeme.token ≠ some .openParen := by
    intro h
    cases rest with
    | nil => exact nomatch h
    | cons o tail => exact hstops o tail rfl (Option.some.inj h)
  simp only [atom, hopen, if_false]
  cases hl : l.token
  all_goals
    rw [hl] at hleaf
    cases hleaf
  all_goals rfl

theorem reads_group {expression : Rule} {room roomInner : Prop} {o c : Lexeme}
    (ho : o.token = .openParen) (hc : c.token = .closeParen)
    (h : Reads (expression input) roomInner e (c :: rest)) (hroom : room → roomInner) :
    Reads (atom bounds expression (o :: input)) room e rest := by
  have hlen : (o :: input).length = input.length + 1 := List.length_cons
  have hlen' : (c :: rest).length = rest.length + 1 := List.length_cons
  simp only [atom, ho]
  refine h.bind hroom fun depth hshort hle => ?_
  dsimp only
  rw [expect_cons hc]
  exact .inl ⟨depth, by omega, by omega, rfl⟩

theorem reads_array {expression : Rule} {room roomItems : Prop} {o : Lexeme} {es : List Expr}
    {tallest : Nat} (ho : o.token = .openBracket)
    (h : ReadsList (list expression .closeBracket .closeBracket input) roomItems es tallest rest)
    (htallest : tallest + rest.length < input.length) (hroomItems : room → roomItems)
    (hroom : room → (o :: input).length ≤ bounds.height) :
    Reads (atom bounds expression (o :: input)) room (.array es) rest := by
  have hlen : (o :: input).length = input.length + 1 := List.length_cons
  simp only [atom, ho]
  obtain ⟨r, hx, rfl, hdepth, rfl⟩ | ⟨hnot, offset, hx⟩ := h
  · rw [hx]
    exact arrives_grow hroom (by omega) fun hle => .inl ⟨_, by omega, hle, rfl⟩
  · rw [hx]
    exact .inr ⟨fun hr => hnot (hroomItems hr), offset, rfl⟩

theorem reads_call {expression : Rule} {room roomItems : Prop} {l o : Lexeme} {id : String}
    {es : List Expr} {tallest : Nat} (hl : l.token = .name id) (ho : o.token = .openParen)
    (h : ReadsList (list expression .closeParen .closeParen input) roomItems es tallest rest)
    (htallest : tallest + rest.length < input.length) (hroomItems : room → roomItems)
    (hroom : room → (l :: o :: input).length ≤ bounds.height) :
    Reads (atom bounds expression (l :: o :: input)) room (.call id es l.start) rest := by
  have hlen : (l :: o :: input).length = input.length + 2 := by simp
  simp only [atom, hl, List.head?_cons, Option.map_some, ho, if_true, List.tail_cons]
  obtain ⟨r, hx, rfl, hdepth, rfl⟩ | ⟨hnot, offset, hx⟩ := h
  · rw [hx]
    exact arrives_grow hroom (by omega) fun hle => .inl ⟨_, by omega, hle, rfl⟩
  · rw [hx]
    exact .inr ⟨fun hr => hnot (hroomItems hr), offset, rfl⟩

end

/-! ## All phrases -/

/-- What the parser makes of a derivation as a phrase, whatever levels are left. The loops are
followed to where they go on, and all other rules to their end. -/
def Goal (bounds : Bounds) : Phrase → List Lexeme → Expr → List Lexeme → Prop
  | .expression, input, e, rest => ∀ levels, Phrase.expression.Stops rest →
      Reads (expression bounds levels input) (Room bounds levels input) e rest
  | .chain k, input, e, rest => ∀ levels, (Phrase.chain (k + 1)).Stops rest →
      Arrives (chainFrom bounds (prefixed bounds levels) k input) (Room bounds (levels + 1) input)
        rest (resume bounds (prefixed bounds levels) k e rest)
  | .prefixed, input, e, rest => ∀ levels, Phrase.prefixed.Stops rest →
      Reads (prefixed bounds levels input) (Room bounds (levels + 1) input) e rest
  | .selection, input, e, rest => ∀ levels, Phrase.atom.Stops rest →
      Arrives (selected bounds (expression bounds levels) input) (Room bounds (levels + 1) input)
        rest fun depth h => members bounds (expression bounds levels) input.length e depth rest h
  | .atom, input, e, rest => ∀ levels, Phrase.atom.Stops rest →
      Reads (atom bounds (expression bounds levels) input) (Room bounds (levels + 1) input) e rest
  | .list, input, e, rest => ∀ levels close expected c after es, e = .array es →
      rest = c :: after → c.token = close → (close = .closeParen ∨ close = .closeBracket) →
      ReadsList (list (expression bounds levels) close expected input) (Room bounds levels input)
        es (input.length - rest.length) after
  | .items, input, e, rest => ∀ levels close expected c after es, e = .array es →
      rest = c :: after → c.token = close → (close = .closeParen ∨ close = .closeBracket) →
      ∀ bound read depth (h : input.length ≤ bound),
        ReadsList (items (expression bounds levels) close expected bound read depth input h)
          (Room bounds levels input) (read ++ es) (max depth (input.length - rest.length)) after

theorem goal_of_derives (bounds : Bounds) {p : Phrase} {input rest : List Lexeme} {e : Expr}
    (h : Derives p input e rest) : Goal bounds p input e rest := by
  induction h with
  | chain h ih =>
    intro levels hstops
    have hshort := h.shorter (by simp)
    cases levels with
    | zero =>
      -- No level is left, but there is a lexeme, so there was no room.
      rw [expression]
      exact .inr ⟨fun hr => by have := hr.1; omega, _, rfl⟩
    | succ levels =>
      rw [expression]
      exact reads_choice (reads_chain (ih levels hstops.chain) hstops.chain) hstops
  | @conditional _ _ _ _ _ _ _ q c htest hq hyes hc hno ihtest ihyes ihno =>
    intro levels hstops
    have htestShort := htest.shorter (by simp)
    have hyesShort := hyes.shorter (by simp)
    rw [List.length_cons] at htestShort hyesShort
    cases levels with
    | zero =>
      rw [expression]
      exact .inr ⟨fun hr => by have := hr.1; omega, _, rfl⟩
    | succ levels =>
      rw [expression]
      have hquestion : ∀ k tail, (Phrase.chain k).Stops (q :: tail) := fun k tail =>
        Phrase.stops_cons (by rw [hq]; exact Phrase.not_extends_question k)
      have htest := reads_chain (ihtest levels (hquestion 1 _)) (hquestion 0 _)
      have hyes := ihyes levels (Phrase.stops_of_closing (.inr (.inr (.inr hc))))
      refine reads_conditional htest hq hyes hc (ihno levels hstops) ?_ ?_ fun hr => hr.2
      · exact fun hr => hr.inner (by omega) (by omega)
      · exact fun hr => hr.inner (by omega) (by omega)
  | tighter hlevel h ih =>
    intro levels hstops
    exact arrives_tighter hlevel (reads_chain (ih levels hstops.tighter) hstops)
  | operation hleft hl hright ihleft ihright =>
    intro levels hstops
    have hshort := hleft.shorter (by simp)
    rw [List.length_cons] at hshort
    -- The left side is a chain of the same level, so the loop comes by it.
    refine arrives_operation hl (ihleft levels (Phrase.stops_cons ?_))
      (reads_chain (ihright levels hstops.tighter) hstops) ?_ fun hr => hr.2
    · rw [hl]
      exact Phrase.not_extends_operator _
    · exact fun hr => hr.inner (by omega) (by omega)
  | operand h ih =>
    intro levels hstops
    exact ih levels hstops.prefixed
  | @prefixed _ _ input rest e hl h ih =>
    intro levels hstops
    have hshort := h.shorter (by simp)
    rw [prefixed.eq_def]
    cases levels with
    | zero =>
      -- No level is left for the operand, nor was there room for one.
      have hnone : Reads (exhausted bounds input) False e rest := .inr ⟨fun hr => hr, _, rfl⟩
      refine reads_prefixed hl hnone (fun hr => ?_) fun hr => hr.2
      have := hr.1
      rw [List.length_cons] at this
      omega
    | succ levels =>
      refine reads_prefixed hl (ih levels hstops) ?_ fun hr => hr.2
      exact fun hr => hr.inner (by rw [List.length_cons]; omega) (by simp)
  | selection h ih =>
    intro levels hstops
    have hselection : Phrase.selection.Stops _ := hstops
    rw [prefixed.eq_def]
    exact reads_selection h (reads_selected (ih levels hselection.atom) hselection)
  | atom h ih =>
    intro levels hstops
    exact arrives_atom (ih levels hstops)
  | member h hdot hl ih =>
    intro levels hstops
    refine arrives_member hdot hl (ih levels (Phrase.stops_cons ?_)) fun hr => hr.2
    rw [hdot]
    simp [Phrase.Extends]
  | index h ho hproperty hc ih ihproperty =>
    intro levels hstops
    have hshort := h.shorter (by simp)
    rw [List.length_cons] at hshort
    have hproperty := ihproperty levels (Phrase.stops_of_closing (.inr (.inl hc)))
    refine arrives_index ho hc (ih levels (Phrase.stops_cons ?_)) hproperty ?_ fun hr => hr.2
    · rw [ho]
      simp [Phrase.Extends]
    · exact fun hr => hr.inner (by omega) (by omega)
  | leaf h =>
    intro levels hstops
    exact reads_leaf h hstops
  | group ho h hc ih =>
    intro levels hstops
    refine reads_group ho hc (ih levels (Phrase.stops_of_closing (.inl hc))) ?_
    exact fun hr => hr.inner (by rw [List.length_cons]; omega) (by simp)
  | array ho h hc ih =>
    intro levels hstops
    have hle := h.length_le
    rw [List.length_cons] at hle
    have hitems := ih levels .closeBracket .closeBracket _ _ _ rfl rfl hc (.inr rfl)
    rw [List.length_cons] at hitems
    refine reads_array ho hitems (by omega) ?_ fun hr => hr.2
    exact fun hr => hr.inner (by rw [List.length_cons]; omega) (by simp)
  | call hl ho h hc ih =>
    intro levels hstops
    have hle := h.length_le
    rw [List.length_cons] at hle
    have hitems := ih levels .closeParen .closeParen _ _ _ rfl rfl hc (.inl rfl)
    rw [List.length_cons] at hitems
    refine reads_call hl ho hitems (by omega) ?_ fun hr => hr.2
    exact fun hr => hr.inner (by simp only [List.length_cons]; omega)
      (by simp only [List.length_cons]; omega)
  | nothing =>
    intro levels close expected c after es he hrest hc hclose
    cases he
    subst hrest
    rw [Nat.sub_self]
    exact reads_nothing hc
  | something h ih =>
    intro levels close expected c after es he hrest hc hclose
    cases he
    refine reads_something h (by obtain rfl | rfl := hclose <;> rfl) fun hbound => ?_
    have hitems := ih levels close expected c after _ rfl hrest hc hclose _ [] 0 hbound
    rwa [Nat.zero_max] at hitems
  | last h ih =>
    intro levels close expected c after es he hrest hc hclose bound read depth hbound
    cases he
    subst hrest
    have hends : Phrase.expression.Stops (c :: after) :=
      Phrase.stops_of_closing (by rw [hc]; exact hclose.imp_right .inl)
    exact reads_last hc (by obtain rfl | rfl := hclose <;> simp) (ih levels hends) hbound
  | more h hc hitems ih ihitems =>
    intro levels close expected c' after es he hrest hc' hclose bound read depth hbound
    cases he
    have hshort := h.shorter (by simp)
    rw [List.length_cons] at hshort
    have hfirst := ih levels (Phrase.stops_of_closing (.inr (.inr (.inl hc))))
    refine reads_more hc hfirst (fun hr => hr) hitems.length_le ?_ hbound
    intro read depth hbound
    have hmore := ihitems levels close expected c' after _ rfl hrest hc' hclose _ read depth hbound
    exact hmore.weaken fun hr => hr.inner (by omega) (by omega)

/-! ## Whole texts -/

section

variable {bounds : Bounds} {levels : Nat} {input : List Lexeme} {e e' : Expr}

/-- What is derived from a whole list of lexemes is read from it, unless a limit is met. -/
theorem ofLexemes_of_derives (h : Derives .expression input e []) :
    ofLexemes bounds levels input = .ok e ∨
      (¬ Room bounds levels input ∧
        ∃ offset, ofLexemes bounds levels input = .error (.tooDeep offset)) := by
  have hgoal := goal_of_derives bounds h levels (Phrase.stops_nil .expression)
  obtain ⟨depth, hshort, -, hread⟩ | ⟨hroom, offset, hdeep⟩ := hgoal
  · left
    unfold ofLexemes
    rw [hread]
    rfl
  · right
    unfold ofLexemes
    rw [hdeep]
    exact ⟨hroom, offset, rfl⟩

/-- Where there is room, the parser and the grammar agree. -/
theorem ofLexemes_eq_ok_iff (hroom : Room bounds levels input) :
    ofLexemes bounds levels input = .ok e ↔ Derives .expression input e [] := by
  refine ⟨derives_of_ofLexemes, fun h => ?_⟩
  obtain hread | ⟨hnot, -⟩ := ofLexemes_of_derives h
  · exact hread
  · exact absurd hroom hnot

/-- The grammar is unambiguous, since the parser has only one answer. -/
theorem Derives.unique (h : Derives .expression input e []) (h' : Derives .expression input e' []) :
    e' = e := by
  -- Any limits with room will do.
  have hroom : Room ⟨0, input.length⟩ input.length input := ⟨Nat.le_refl _, Nat.le_refl _⟩
  have hread := (ofLexemes_eq_ok_iff hroom).mpr h
  rw [(ofLexemes_eq_ok_iff hroom).mpr h'] at hread
  exact Except.ok.inj hread

end

/-- The parser accepts exactly its grammar. What it reads from a text is derived from the lexemes
of the text; what is derived from them is unique, and read unless a limit is met; and no limits
that are higher give another answer. -/
theorem parse_exact (source : String) (lexemes : List Lexeme)
    (h : Lexeme.scan source = .ok lexemes) :
    (∀ e, parse source = .ok e → Derives .expression lexemes e []) ∧
    (∀ e, Derives .expression lexemes e [] →
      (∀ e', Derives .expression lexemes e' [] → e' = e) ∧
      (parse source = .ok e ∨ ∃ offset, parse source = .error (.tooDeep offset))) ∧
    (∀ height levels, maxDepth ≤ height → maxDepth ≤ levels →
      parse source = ofLexemes ⟨source.utf8ByteSize, height⟩ levels lexemes ∨
        ∃ offset, parse source = .error (.tooDeep offset)) := by
  rw [parse_of_scan h]
  refine ⟨fun e hread => derives_of_ofLexemes hread, fun e hderives => ⟨?_, ?_⟩, ?_⟩
  · exact fun e' hderives' => hderives.unique hderives'
  · exact (ofLexemes_of_derives hderives).imp_right fun ⟨_, hdeep⟩ => hdeep
  · intro height levels hheight hlevels
    have hbelow : Bounds.Below ⟨source.utf8ByteSize, maxDepth⟩ ⟨source.utf8ByteSize, height⟩ :=
      ⟨rfl, hheight⟩
    exact cutShort_ofLexemes hbelow hlevels lexemes

theorem parse_exact_difference :
    ∃ lexemes e, Lexeme.scan "a - b * c" = .ok lexemes ∧
      e = .binary .sub (.name "a") (.binary .mul (.name "b") (.name "c")) ∧
      Derives .expression lexemes e [] := by
  have hscan : Lexeme.scan "a - b * c" = .ok [⟨.name "a", 0, 1⟩, ⟨.minus, 2, 3⟩,
      ⟨.name "b", 4, 5⟩, ⟨.star, 6, 7⟩, ⟨.name "c", 8, 9⟩] := by
    decide +kernel
  have hparse : parse "a - b * c" =
      .ok (.binary .sub (.name "a") (.binary .mul (.name "b") (.name "c"))) := by
    rw [parse_of_scan hscan, show "a - b * c".utf8ByteSize = 9 from rfl]
    cbv
  exact ⟨_, _, hscan, rfl, (parse_exact "a - b * c" _ hscan).1 _ hparse⟩

end Expr

end Dataflow
