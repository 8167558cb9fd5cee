import Dataflow.Proofs.ExprGrammar
import Dataflow.Proofs.ExprParserLimits

/-!
# Rules as readers

The type of what a rule returns depends on its input, which is how the parser is seen to end. To
compare what a rule makes of several inputs, it is turned into a `Reader`, for which the input is
a state: the tree and its depth are what it returns, and what is left is the state afterwards. Every
rule is a sequence of readers, and so is one round of a loop, since it does not matter to a loop
which bound its results are given for (`outcome_members`, `outcome_joined`, `outcome_items`).
-/

namespace Dataflow

namespace Expr

/-- Reads something from the front of a list of lexemes and leaves the others. -/
abbrev Reader (α : Type) := StateT (List Lexeme) (Except SyntaxError) α

/-- The tree and its depth, and what is left. -/
def Parsed.outcome {bound : Nat} (r : Parsed bound) : (Expr × Nat) × List Lexeme :=
  ((r.expr, r.depth), r.rest)

/-- The items and the depth of the tallest, and what is left. -/
def ParsedList.outcome {bound : Nat} (r : ParsedList bound) : (List Expr × Nat) × List Lexeme :=
  ((r.items, r.depth), r.rest)

/-- A rule as a reader. -/
def Rule.reader (rule : Rule) : Reader (Expr × Nat) := fun input =>
  (rule input).map Parsed.outcome

theorem reader_eq_ok {rule : Rule} {input rest : List Lexeme} {e : Expr} {depth : Nat} :
    rule.reader input = .ok ((e, depth), rest) ↔
      ∃ h, rule input = .ok ⟨e, depth, rest, h⟩ := by
  rw [Rule.reader]
  constructor
  · intro h
    cases hrule : rule input with
    | error err =>
      rw [hrule] at h
      exact nomatch h
    | ok r =>
      rw [hrule] at h
      cases h
      exact ⟨r.shorter, rfl⟩
  · rintro ⟨h, hrule⟩
    rw [hrule]
    rfl

/-! ## Single steps -/

/-- Reads one lexeme, if its token is of some kind. -/
def next {α : Type} (kind : Token → Option α) (expected : Expected) : Reader α
  | [] => .error (unexpected expected [])
  | l :: rest =>
    match kind l.token with
    | some a => .ok (a, rest)
    | none => .error (unexpected expected (l :: rest))

/-- Reads one token. -/
def skip (token : Token) (expected : Expected) : Reader Unit :=
  next (fun t => if t = token then some () else none) expected

/-- The height of a node over trees of the given height. -/
def grown (bounds : Bounds) (child : Nat) : Reader Nat := fun rest =>
  (grow bounds child rest).map (·, rest)

section

variable {α β : Type} {input rest : List Lexeme}

theorem bind_of_ok {m : Reader α} {f : α → Reader β} {a : α} (h : m input = .ok (a, rest)) :
    (m >>= f) input = f a rest := by
  dsimp only [bind, StateT.bind]
  rw [h]
  rfl

theorem bind_of_error {m : Reader α} {f : α → Reader β} {e : SyntaxError}
    (h : m input = .error e) : (m >>= f) input = .error e := by
  dsimp only [bind, StateT.bind]
  rw [h]
  rfl

theorem next_some {kind : Token → Option α} {expected : Expected} {l : Lexeme} {a : α}
    (h : kind l.token = some a) : next kind expected (l :: rest) = .ok (a, rest) := by
  rw [next, h]

theorem next_none {kind : Token → Option α} {expected : Expected}
    (h : ∀ l tail, input = l :: tail → kind l.token = none) :
    next kind expected input = .error (unexpected expected input) := by
  cases input with
  | nil => rfl
  | cons l rest => rw [next, h l rest rfl]

theorem reader_bind {rule : Rule} {f : Expr × Nat → Reader β} :
    (rule.reader >>= f) input = rule input >>= fun r => f (r.expr, r.depth) r.rest := by
  dsimp only [bind, StateT.bind, Rule.reader]
  cases rule input <;> rfl

theorem skip_bind {token : Token} {expected : Expected} {f : Unit → Reader β} :
    (skip token expected >>= f) input = expect token expected input >>= fun r => f () r.1 := by
  cases input with
  | nil => rfl
  | cons l rest =>
    dsimp only [bind, StateT.bind, skip, next, expect]
    by_cases h : l.token = token
    · rw [if_pos h, if_pos h]
      rfl
    · rw [if_neg h, if_neg h]
      rfl

theorem grown_bind {bounds : Bounds} {child : Nat} {f : Nat → Reader β} :
    (grown bounds child >>= f) input = grow bounds child input >>= fun depth => f depth input := by
  dsimp only [bind, StateT.bind, grown]
  cases grow bounds child input <;> rfl

theorem map_bind {ε α β γ : Type} {x : Except ε α} {f : α → Except ε β} {g : β → γ} :
    (x >>= f).map g = x >>= fun a => (f a).map g := by
  cases x <;> rfl

theorem map_pure {ε α β : Type} {a : α} {g : α → β} :
    (pure a : Except ε α).map g = pure (g a) := rfl

theorem pure_apply {a : β} : (pure a : Reader β) input = pure (a, input) := rfl

end

/-! ## Lists -/

section

variable {bounds : Bounds} {expression : Rule} {close : Token} {expected : Expected}
  {input rest : List Lexeme}

/-- The loop over the items of a list as a reader. -/
def listing (expression : Rule) (close : Token) (expected : Expected) (read : List Expr)
    (depth : Nat) : Reader (List Expr × Nat) := fun input =>
  (items expression close expected input.length read depth input (Nat.le_refl _)).map
    ParsedList.outcome

/-- The kinds of tokens after an item: whether another one follows. -/
def separator? (close : Token) (t : Token) : Option Bool :=
  if t = .comma then some true else if t = close then some false else none

theorem eq_comma_of_separator? {t : Token} (h : separator? close t = some true) : t = .comma := by
  unfold separator? at h
  split at h
  · assumption
  · split at h <;> exact nomatch h

/-- The bound of the results makes no difference to the loop. -/
theorem outcome_items {read : List Expr} {depth m n : Nat} (hm : input.length ≤ m)
    (hn : input.length ≤ n) :
    (items expression close expected m read depth input hm).map ParsedList.outcome =
      (items expression close expected n read depth input hn).map ParsedList.outcome := by
  -- Both loops read the same item, and go on from the same place.
  induction hlen : input.length using Nat.strongRecOn generalizing input read depth with
  | ind k ih =>
    rw [items.eq_def _ _ _ m, items.eq_def _ _ _ n]
    cases expression input with
    | error e => rfl
    | ok item =>
      obtain ⟨e, itemDepth, rest, hshort⟩ := item
      cases rest with
      | nil => rfl
      | cons l rest =>
        rw [List.length_cons] at hshort
        dsimp only
        split
        · exact ih rest.length (by omega) _ _ rfl
        · split <;> rfl

theorem listing_eq {read : List Expr} {depth : Nat} :
    listing expression close expected read depth = (do
      let item ← expression.reader
      if ← next (separator? close) expected then
        listing expression close expected (read ++ [item.1]) (max depth item.2)
      else return (read ++ [item.1], max depth item.2)) := by
  funext input
  rw [reader_bind, listing, items.eq_def]
  cases expression input with
  | error e => rfl
  | ok item =>
    obtain ⟨e, itemDepth, rest, hshort⟩ := item
    cases rest with
    | nil => rfl
    | cons l rest =>
      dsimp only [bind, Except.bind, StateT.bind, next, separator?]
      split
      · exact outcome_items _ _
      · split <;> rfl

/-- A list after its opening bracket as a reader. -/
def listed (expression : Rule) (close : Token) (expected : Expected) :
    Reader (List Expr × Nat) := fun input =>
  (list expression close expected input).map ParsedList.outcome

theorem listed_bind {β : Type} {f : List Expr × Nat → Reader β} :
    (listed expression close expected >>= f) input =
      list expression close expected input >>= fun r => f (r.items, r.depth) r.rest := by
  dsimp only [bind, StateT.bind, listed]
  cases list expression close expected input <;> rfl

theorem listed_close {l : Lexeme} (h : l.token = close) :
    listed expression close expected (l :: rest) = .ok (([], 0), rest) := by
  simp only [listed, list, h, if_true]
  rfl

theorem listed_items (h : ∀ l tail, input = l :: tail → l.token ≠ close) :
    listed expression close expected input = listing expression close expected [] 0 input := by
  cases input with
  | nil => rfl
  | cons l rest =>
    simp only [listed, list, h l rest rfl, if_false]
    exact outcome_items _ _

/-! ## Atoms -/

/-- A token that is an atom on its own, unless it is the name of a call. -/
theorem atom_leaf {l : Lexeme} {e : Expr} (hl : l.token.leaf? = some e)
    (hcall : ∀ id, l.token = .name id → rest.head?.map Lexeme.token ≠ some .openParen) :
    (atom bounds expression).reader (l :: rest) = .ok ((e, 1), rest) := by
  simp only [Rule.reader, atom]
  cases htoken : l.token
  case name id =>
    rw [htoken] at hl
    obtain rfl := Option.some.inj hl
    simp only [hcall id htoken, if_false]
    rfl
  all_goals
    rw [htoken] at hl
    cases hl
  all_goals rfl

/-- Nothing else starts an atom. -/
theorem atom_none (h : ∀ l tail, input = l :: tail → startsAtom l.token = false) :
    (atom bounds expression).reader input = .error (unexpected .expression input) := by
  cases input with
  | nil => rfl
  | cons l rest =>
    have hl := h l rest rfl
    simp only [Rule.reader, atom]
    cases htoken : l.token
    all_goals first
      | rfl
      | (rw [htoken] at hl
         cases hl)

theorem atom_group {o : Lexeme} (ho : o.token = .openParen) :
    (atom bounds expression).reader (o :: rest) = (do
      let inner ← expression.reader
      skip .closeParen .closeParen
      return inner) rest := by
  simp only [Rule.reader, atom, ho, map_bind, reader_bind, skip_bind, map_pure, pure_apply]
  rfl

theorem atom_array {o : Lexeme} (ho : o.token = .openBracket) :
    (atom bounds expression).reader (o :: rest) = (do
      let items ← listed expression .closeBracket .closeBracket
      let depth ← grown bounds items.2
      return (Expr.array items.1, depth)) rest := by
  simp only [Rule.reader, atom, ho, map_bind, listed_bind, grown_bind, map_pure, pure_apply]
  rfl

theorem atom_call {l o : Lexeme} {id : String} (hl : l.token = .name id)
    (ho : o.token = .openParen) :
    (atom bounds expression).reader (l :: o :: rest) = (do
      let arguments ← listed expression .closeParen .closeParen
      let depth ← grown bounds arguments.2
      return (Expr.call id arguments.1 l.start, depth)) rest := by
  simp only [Rule.reader, atom, hl, ho, List.head?_cons, Option.map_some, if_true, List.tail_cons,
    map_bind, listed_bind, grown_bind, map_pure, pure_apply]
  rfl

/-! ## Selections -/

/-- The loop over the members that are selected as a reader. -/
def selecting (bounds : Bounds) (expression : Rule) (object : Expr) (depth : Nat) :
    Reader (Expr × Nat) := fun input =>
  (members bounds expression (input.length + 1) object depth input (Nat.lt_succ_self _)).map
    Parsed.outcome

/-- The bound of the result makes no difference to the loop. -/
theorem outcome_members {object : Expr} {depth m n : Nat} (hm : input.length < m)
    (hn : input.length < n) :
    (members bounds expression m object depth input hm).map Parsed.outcome =
      (members bounds expression n object depth input hn).map Parsed.outcome := by
  -- Both loops select the same member, and go on from the same place.
  induction hlen : input.length using Nat.strongRecOn generalizing input object depth with
  | ind k ih =>
    cases input with
    | nil =>
      rw [members.eq_def _ _ m, members.eq_def _ _ n]
      rfl
    | cons l rest =>
      rw [List.length_cons] at hlen
      by_cases hopen : l.token = .openBracket
      · rw [members_bracket hopen, members_bracket hopen]
        simp only [map_bind]
        refine bind_congr fun property => bind_congr fun after => bind_congr fun depth => ?_
        have hproperty := property.shorter
        have hafter := after.2
        exact ih after.1.length (by omega) _ _ rfl
      · rw [members.eq_def _ _ m, members.eq_def _ _ n]
        simp only [hopen, if_false]
        split
        · cases rest with
          | nil => rfl
          | cons p rest =>
            rw [List.length_cons] at hlen
            dsimp only
            split
            · cases grow bounds depth rest with
              | error e => rfl
              | ok depth => exact ih rest.length (by omega) _ _ rfl
            · rfl
        · rfl

/-- The kind of tokens after a dot. -/
def propertyName? : Token → Option String
  | .name id => some id
  | _ => none

theorem propertyName?_eq_some {t : Token} {id : String} :
    propertyName? t = some id ↔ t = .name id := by
  cases t <;> simp [propertyName?]

theorem selecting_dot {object : Expr} {depth : Nat} {dot : Lexeme} (hdot : dot.token = .dot) :
    selecting bounds expression object depth (dot :: rest) = (do
      let id ← next propertyName? .propertyName
      let depth ← grown bounds depth
      selecting bounds expression (.member object (.literal (.string id))) depth) rest := by
  cases rest with
  | nil =>
    rw [selecting, members.eq_def]
    simp only [hdot, if_true]
    rfl
  | cons p rest =>
    cases hp : p.token
    case name id =>
      have hnext : next propertyName? .propertyName (p :: rest) = .ok (id, rest) := by
        rw [next, hp]
        rfl
      rw [selecting, members_dot hdot hp, map_bind]
      dsimp only [bind, StateT.bind]
      rw [hnext]
      refine Eq.trans ?_ grown_bind.symm
      exact bind_congr fun depth => outcome_members _ _
    all_goals
      rw [selecting, members.eq_def]
      simp only [hdot, hp, if_true]
      dsimp only [bind, StateT.bind, next]
      rw [hp]
      rfl

theorem selecting_bracket {object : Expr} {depth : Nat} {o : Lexeme}
    (ho : o.token = .openBracket) :
    selecting bounds expression object depth (o :: rest) = (do
      let property ← expression.reader
      skip .closeBracket .closeBracket
      let depth ← grown bounds (max depth property.2)
      selecting bounds expression (.member object property.1) depth) rest := by
  rw [selecting, members_bracket ho]
  simp only [map_bind, reader_bind, skip_bind, grown_bind]
  refine bind_congr fun property => bind_congr fun after => bind_congr fun depth => ?_
  exact outcome_members _ _

theorem selecting_end {object : Expr} {depth : Nat}
    (h : ∀ l tail, input = l :: tail → l.token ≠ .dot ∧ l.token ≠ .openBracket) :
    selecting bounds expression object depth input = .ok ((object, depth), input) := by
  cases input with
  | nil =>
    rw [selecting, members.eq_def]
    rfl
  | cons l rest =>
    obtain ⟨hdot, hopen⟩ := h l rest rfl
    rw [selecting, members.eq_def]
    simp only [hdot, hopen, if_false]
    rfl

theorem selected_reader :
    (selected bounds expression).reader = (do
      let first ← (atom bounds expression).reader
      selecting bounds expression first.1 first.2) := by
  funext input
  rw [reader_bind]
  simp only [Rule.reader, selected, map_bind]
  refine bind_congr fun first => ?_
  exact outcome_members _ _

/-! ## Operators -/

/-- The loop over the operators of one level as a reader. -/
def joining (bounds : Bounds) (operand : Rule) (operators : Operators) (left : Expr)
    (depth : Nat) : Reader (Expr × Nat) := fun input =>
  (joined bounds operand operators (input.length + 1) left depth input (Nat.lt_succ_self _)).map
    Parsed.outcome

/-- The bound of the result makes no difference to the loop. -/
theorem outcome_joined {operand : Rule} {operators : Operators} {left : Expr} {depth m n : Nat}
    (hm : input.length < m) (hn : input.length < n) :
    (joined bounds operand operators m left depth input hm).map Parsed.outcome =
      (joined bounds operand operators n left depth input hn).map Parsed.outcome := by
  -- Both loops read the same operand, and go on from the same place.
  induction hlen : input.length using Nat.strongRecOn generalizing input left depth with
  | ind k ih =>
    cases input with
    | nil =>
      rw [joined, joined]
      rfl
    | cons l rest =>
      rw [List.length_cons] at hlen
      cases hop : operators l.token with
      | none =>
        rw [joined, joined]
        simp only [hop]
        rfl
      | some op =>
        rw [joined_cons hop, joined_cons hop]
        simp only [map_bind]
        refine bind_congr fun right => bind_congr fun depth => ?_
        have hright := right.shorter
        exact ih right.rest.length (by omega) _ _ rfl

theorem joining_operator {operand : Rule} {operators : Operators} {left : Expr} {depth : Nat}
    {l : Lexeme} {op : BinaryOp} (hop : operators l.token = some op) :
    joining bounds operand operators left depth (l :: rest) = (do
      let right ← operand.reader
      let depth ← grown bounds (max depth right.2)
      joining bounds operand operators (.binary op left right.1) depth) rest := by
  rw [joining, joined_cons hop]
  simp only [map_bind, reader_bind, grown_bind]
  exact bind_congr fun right => bind_congr fun depth => outcome_joined _ _

theorem joining_end {operand : Rule} {operators : Operators} {left : Expr} {depth : Nat}
    (h : ∀ l tail, input = l :: tail → operators l.token = none) :
    joining bounds operand operators left depth input = .ok ((left, depth), input) := by
  cases input with
  | nil =>
    rw [joining, joined]
    rfl
  | cons l rest =>
    rw [joining, joined]
    simp only [h l rest rfl]
    rfl

theorem level_reader {operand : Rule} {operators : Operators} :
    (level bounds operators operand).reader = (do
      let first ← operand.reader
      joining bounds operand operators first.1 first.2) := by
  funext input
  rw [reader_bind]
  simp only [Rule.reader, level, map_bind]
  exact bind_congr fun first => outcome_joined _ _

/-! ## Expressions and prefixed operands -/

/-- What follows the test of a choice, if it is one, as a reader. -/
def choosing (bounds : Bounds) (expression : Rule) (test : Expr × Nat) : Reader (Expr × Nat)
  | [] => .ok (test, [])
  | l :: rest =>
    if l.token = .question then
      (do
        let yes ← expression.reader
        skip .colon .colon
        let no ← expression.reader
        let depth ← grown bounds (max (max test.2 yes.2) no.2)
        return (Expr.conditional test.1 yes.1 no.1, depth) : Reader (Expr × Nat)) rest
    else .ok (test, l :: rest)

theorem choosing_question {test : Expr × Nat} {q : Lexeme} (hq : q.token = .question) :
    choosing bounds expression test (q :: rest) = (do
      let yes ← expression.reader
      skip .colon .colon
      let no ← expression.reader
      let depth ← grown bounds (max (max test.2 yes.2) no.2)
      return (Expr.conditional test.1 yes.1 no.1, depth)) rest := by
  rw [choosing, if_pos hq]

theorem choosing_end {test : Expr × Nat}
    (h : ∀ q tail, input = q :: tail → q.token ≠ .question) :
    choosing bounds expression test input = .ok (test, input) := by
  cases input with
  | nil => rfl
  | cons q rest => rw [choosing, if_neg (h q rest rfl)]

theorem choice_reader {chain : Rule} :
    (choice bounds chain expression).reader = (do
      let test ← chain.reader
      choosing bounds expression test) := by
  funext input
  rw [reader_bind]
  simp only [Rule.reader, choice, map_bind]
  refine bind_congr fun test => ?_
  obtain ⟨e, depth, rest, hshort⟩ := test
  cases rest with
  | nil => rfl
  | cons l rest =>
    dsimp only [choosing]
    split
    · simp only [map_bind, reader_bind, skip_bind, grown_bind, map_pure, pure_apply]
      rfl
    · rfl

theorem withPrefixes_operator {inner selected : Rule} {op : UnaryOp} {l : Lexeme}
    (hl : l.token = op.token) :
    (withPrefixes bounds inner selected).reader (l :: rest) = (do
      let operand ← inner.reader
      let depth ← grown bounds operand.2
      return (Expr.unary op operand.1, depth)) rest := by
  cases op
  all_goals
    simp only [Rule.reader, withPrefixes, hl, UnaryOp.token, map_bind, reader_bind, grown_bind,
      map_pure, pure_apply]
    rfl

theorem withPrefixes_other {inner selected : Rule}
    (h : ∀ l tail, input = l :: tail → ∀ op : UnaryOp, l.token ≠ op.token) :
    (withPrefixes bounds inner selected).reader input = selected.reader input := by
  cases input with
  | nil => rfl
  | cons l rest =>
    have hminus := h l rest rfl .negate
    have hbang := h l rest rfl .not
    simp only [Rule.reader, withPrefixes]
    split
    · rename_i hl
      exact absurd hl hminus
    · rename_i hl
      exact absurd hl hbang
    · rfl

end

end Expr

end Dataflow
