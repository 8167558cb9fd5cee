import Dataflow.Proofs.OperatorClimbing
import Dataflow.Proofs.ParserRoutines
import Dataflow.Proofs.TreeRecursion
import Mathlib.Data.Nat.Basic
import Mathlib.Order.MinMax

/-!
# Accepted expressions are bounded

Two limits keep the parser from running out of stack: no more than `maxDepth` levels of nesting may
be open at once, and no tree may be taller. The routines of the parser count both, and this is
exact.

`FollowsOn` says what a routine comes to, how it leaves the counter, and that what it gives is
good. It is closed under sequences (`FollowsOn.bind`), a level of nesting (`followsOn_nested`) and
loops (`followsOn_repeated`), which gives one lemma for each part. Only an expression and what comes
after a prefix operator open a level; inside of it each part calls those below it. So the parts are
put together by induction on the levels that are left (`runs`). The main result is
`nesting_bounded`.
-/

namespace Dataflow

namespace Expr

/-! ## Following a reader -/

section

variable {α β : Type}

/-- On an input, and with some levels of nesting open, a routine comes to `x`: a result and what is
left, or an error. A result is good; and in both cases as many levels are open as before, and no
more than the limit have been open in between. -/
def FollowsOn (bounds : Bounds) (nesting : Nat) (good : α → Prop) (m : Routine α)
    (input : List Lexeme) (x : Except SyntaxError (α × List Lexeme)) : Prop :=
  ∀ peak, ∃ out c, m ⟨input, nesting, peak⟩ = some (out, c) ∧ c.nesting = nesting ∧
    c.peak ≤ max peak bounds.height ∧ out.map (·, c.rest) = x ∧ ∀ a, out = .ok a → good a

/-- A depth is the height of what has been read, and within the limit. -/
def Measured {τ : Type} (bounds : Bounds) (height : τ → Nat) (read : τ × Nat) : Prop :=
  read.2 = height read.1 ∧ read.2 ≤ bounds.height

/-- A routine comes to what a reader gives on every input, and measures what it reads. -/
def Follows {τ : Type} (bounds : Bounds) (nesting : Nat) (height : τ → Nat)
    (m : Routine (τ × Nat)) (q : Reader (τ × Nat)) : Prop :=
  ∀ input, FollowsOn bounds nesting (Measured bounds height) m input (q input)

variable {bounds : Bounds} {nesting : Nat} {good : α → Prop} {good' : β → Prop} {m : Routine α}
  {q : Reader α} {input input' rest : List Lexeme} {x : Except SyntaxError (α × List Lexeme)}

theorem followsOn_pure {a : α} (h : good a) :
    FollowsOn bounds nesting good (pure a) input (.ok (a, input)) :=
  fun _ => ⟨.ok a, _, rfl, rfl, Nat.le_max_left .., rfl, fun _ ha => Except.ok.inj ha ▸ h⟩

theorem followsOn_throw {e : SyntaxError} :
    FollowsOn bounds nesting good (throw e) input (.error e) :=
  fun _ => ⟨.error e, _, rfl, rfl, Nat.le_max_left .., rfl, fun _ ha => nomatch ha⟩

/-- Routines follow readers one after the other. -/
theorem FollowsOn.bind {f : α → Routine β} {g : α → Reader β}
    (hm : FollowsOn bounds nesting good m input (q input'))
    (hf : ∀ a rest, good a → q input' = .ok (a, rest) →
      FollowsOn bounds nesting good' (f a) rest (g a rest)) :
    FollowsOn bounds nesting good' (m >>= f) input ((q >>= g) input') := by
  intro peak
  obtain ⟨out, ⟨rest, n, top⟩, hrun, hnesting, htop, hread, hgood⟩ := hm peak
  obtain rfl : n = nesting := hnesting
  cases out with
  | error e =>
    exact ⟨.error e, _, Routine.bind_of_error hrun, rfl, htop, (bind_of_error hread.symm).symm,
      fun _ ha => nomatch ha⟩
  | ok a =>
    obtain ⟨out, c, hrun', hnesting', htop', hread', hgood'⟩ :=
      hf a rest (hgood a rfl) hread.symm top
    refine ⟨out, c, (Routine.bind_of_ok hrun).trans hrun', hnesting', ?_,
      hread'.trans (bind_of_ok hread.symm).symm, hgood'⟩
    exact htop'.trans (Nat.max_le.mpr ⟨htop, Nat.le_max_right ..⟩)

/-! ## Elementary routines -/

/-- The next token is only looked at. -/
theorem followsOn_peek {f : Option Token → Routine α}
    (h : FollowsOn bounds nesting good (f (input.head?.map Lexeme.token)) input x) :
    FollowsOn bounds nesting good (Routine.peek >>= f) input x := h

theorem followsOn_advance {f : Option Lexeme → Routine α} {l : Lexeme}
    (h : FollowsOn bounds nesting good (f (some l)) rest x) :
    FollowsOn bounds nesting good (Routine.advance >>= f) (l :: rest) x := h

theorem followsOn_take {kind : Token → Option α} {expected : Expected} :
    FollowsOn bounds nesting (fun _ => True) (Routine.take kind expected) input
      (next kind expected input) := by
  unfold Routine.take
  cases input with
  | nil => exact followsOn_throw
  | cons l rest =>
    refine followsOn_advance ?_
    cases hkind : kind l.token with
    | none =>
      rw [next_none fun _ _ hinput => (List.cons.inj hinput).1 ▸ hkind]
      simp only [hkind]
      exact followsOn_throw
    | some a =>
      rw [next_some hkind]
      simp only [hkind]
      exact followsOn_pure trivial

theorem followsOn_expect {token : Token} {expected : Expected} :
    FollowsOn bounds nesting (fun _ => True) (Routine.expect token expected) input
      (skip token expected input) :=
  followsOn_take

theorem followsOn_wrap {child : Nat} :
    FollowsOn bounds nesting (fun depth => depth = child + 1 ∧ depth ≤ bounds.height)
      (Routine.wrap bounds child) input (grown bounds child input) := by
  intro peak
  refine ⟨grow bounds child input, _, rfl, rfl, Nat.le_max_left .., rfl, fun depth hdepth => ?_⟩
  unfold grow at hdepth
  split at hdepth
  · obtain rfl := Except.ok.inj hdepth
    exact ⟨rfl, by assumption⟩
  · cases hdepth

/-- A node over trees of known height, as the result. -/
theorem followsOn_wrapped {child : Nat} {e : Expr} {input : List Lexeme}
    (h : e.height = child + 1) :
    FollowsOn bounds nesting (Measured bounds height)
      (do
        let depth ← Routine.wrap bounds child
        return (e, depth)) input
      ((do
        let depth ← grown bounds child
        return (e, depth) : Reader (Expr × Nat)) input) :=
  followsOn_wrap.bind fun _ _ hdepth _ => followsOn_pure ⟨hdepth.1.trans h.symm, hdepth.2⟩

/-- A node over trees of known height, with which a loop goes on. -/
theorem followsOn_wrapped_inl {child : Nat} {e : Expr} {good' : β → Prop} {input : List Lexeme}
    (h : e.height = child + 1) :
    FollowsOn bounds nesting (Sum.elim (Measured bounds height) good')
      (do
        let depth ← Routine.wrap bounds child
        return .inl (e, depth)) input
      ((do
        let depth ← grown bounds child
        return .inl (e, depth) : Reader ((Expr × Nat) ⊕ β)) input) :=
  followsOn_wrap.bind fun _ _ hdepth _ => followsOn_pure ⟨hdepth.1.trans h.symm, hdepth.2⟩

/-- One level deeper, a routine follows what it follows there. -/
theorem followsOn_nested (hlt : nesting < bounds.height)
    (h : FollowsOn bounds (nesting + 1) good m input x) :
    FollowsOn bounds nesting good (Routine.nested bounds m) input x := by
  intro peak
  obtain ⟨out, c, hrun, hnesting, htop, hread, hgood⟩ := h (max peak (nesting + 1))
  refine ⟨out, c.leave, ?_, ?_, ?_, hread, hgood⟩
  · rw [Routine.nested, if_neg (Nat.not_le.mpr hlt)]
    exact congrArg (Option.map fun r => (r.1, r.2.leave)) hrun
  · rw [Cursor.leave, hnesting, Nat.add_sub_cancel]
  · -- The level that has been opened is within the limit.
    rw [max_assoc, max_eq_right (Nat.succ_le_of_lt hlt)] at htop
    exact htop

/-- Where no level is left, nothing is opened. -/
theorem followsOn_nested_full (hge : bounds.height ≤ nesting) :
    FollowsOn bounds nesting good (Routine.nested bounds m) input
      (.error (.tooDeep (position bounds.finish input))) :=
  fun _ => ⟨_, _, if_pos hge, rfl, Nat.le_max_left .., rfl, fun _ ha => nomatch ha⟩

/-- A round of a loop that comes to `x` as a whole. What the round itself comes to is what a reader
gives; from there the loop goes on as `q`, or it ends, and where it goes on, lexemes have been
taken. -/
def RoundOn (bounds : Bounds) (nesting : Nat) (good : α → Prop) (good' : β → Prop)
    (m : Routine (α ⊕ β)) (q : α → Reader β) (input : List Lexeme)
    (x : Except SyntaxError (β × List Lexeme)) : Prop :=
  ∃ (step : Reader (α ⊕ β)) (input' : List Lexeme),
    FollowsOn bounds nesting (Sum.elim good good') m input (step input') ∧
    x = (step >>= Sum.elim q pure) input' ∧
    ∀ a rest, step input' = .ok (.inl a, rest) → rest.length < input.length

/-- A round that ends its loop. -/
theorem roundOn_end {q : α → Reader β} {b : β} (h : good' b) :
    RoundOn bounds nesting good good' (pure (.inr b)) q input (.ok (b, input)) :=
  ⟨pure (.inr b), input, followsOn_pure h, rfl, fun _ _ h => nomatch h⟩

theorem roundOn_peek {f : Option Token → Routine (α ⊕ β)} {q : α → Reader β}
    {y : Except SyntaxError (β × List Lexeme)}
    (h : RoundOn bounds nesting good good' (f (input.head?.map Lexeme.token)) q input y) :
    RoundOn bounds nesting good good' (Routine.peek >>= f) q input y := h

/-- A loop follows what its rounds come to. -/
theorem followsOn_repeated {round : α → Routine (α ⊕ β)} (q : α → Reader β)
    (hround : ∀ a input, good a →
      RoundOn bounds nesting good good' (round a) q input (q a input)) {a : α} (ha : good a) :
    FollowsOn bounds nesting good' (Routine.repeated round a) input (q a input) := by
  have hloop : ∀ rounds a input, good a → input.length < rounds →
      FollowsOn bounds nesting good' (Routine.loop round rounds a) input (q a input) := by
    intro rounds
    induction rounds with
    | zero => exact fun _ _ _ hlt => absurd hlt (Nat.not_lt_zero _)
    | succ rounds ih =>
      intro a input ha hlt
      obtain ⟨step, input', hstep, hq, hshort⟩ := hround a input ha
      rw [hq]
      refine hstep.bind fun next rest hnext hrest => ?_
      cases next with
      | inl a' =>
        exact ih a' rest hnext (Nat.lt_of_lt_of_le (hshort a' rest hrest) (Nat.le_of_lt_succ hlt))
      | inr b => exact followsOn_pure hnext
  exact fun peak => hloop (input.length + 1) a input ha (Nat.lt_succ_self _) peak

end

theorem shorter_of_reader {rule : Rule} {input rest : List Lexeme} {r : Expr × Nat}
    (h : rule.reader input = .ok (r, rest)) : rest.length < input.length :=
  (reader_eq_ok.mp h).1

theorem shorter_of_next {α : Type} {kind : Token → Option α} {expected : Expected}
    {input rest : List Lexeme} {a : α} (h : next kind expected input = .ok (a, rest)) :
    rest.length < input.length := by
  unfold next at h
  split at h
  · cases h
  · split at h
    · cases h
      exact Nat.lt_succ_self _
    · cases h

/-- The next token is not one that the first lexeme does not have. -/
theorem head?_ne_of_head_ne {token : Token} {input : List Lexeme}
    (h : ∀ l tail, input = l :: tail → ¬ l.token = token) :
    input.head?.map Lexeme.token ≠ some token := by
  intro hhead
  obtain ⟨l, hfirst, hl⟩ := Option.map_eq_some_iff.mp hhead
  obtain ⟨rest, rfl⟩ := List.head?_eq_some_iff.mp hfirst
  exact h l rest rfl hl

/-- Whether the next token is of some kind. -/
theorem head_kinds {α : Type} (kind : Token → Option α) (input : List Lexeme) :
    (∃ l rest a, input = l :: rest ∧ kind l.token = some a) ∨
      (∀ l tail, input = l :: tail → kind l.token = none) ∧
        (input.head?.map Lexeme.token).bind kind = none := by
  cases input with
  | nil => exact .inr ⟨fun _ _ h => (nomatch h), rfl⟩
  | cons l rest =>
    cases h : kind l.token with
    | some a => exact .inl ⟨l, rest, a, rfl, h⟩
    | none => exact .inr ⟨fun _ _ hinput => (List.cons.inj hinput).1 ▸ h, h⟩

/-- Even a leaf is a node. -/
theorem one_le_height (e : Expr) : 1 ≤ e.height := by
  cases e <;> simp [height]

section

variable {bounds : Bounds} {nesting : Nat} {call : (p : Part) → Routine p.Result}
  {expression : Rule} {input rest : List Lexeme}

/-! ## Lists -/

theorem measured_append {items : List Expr × Nat} {item : Expr × Nat}
    (hitems : Measured bounds heightAll items) (hitem : Measured bounds height item) :
    Measured bounds heightAll (items.1 ++ [item.1], max items.2 item.2) := by
  have happend : ∀ es e, heightAll (es ++ [e]) = max (heightAll es) (height e) := by
    intro es e
    induction es with
    | nil => simp [heightAll]
    | cons e' rest ih => rw [List.cons_append, heightAll, ih, heightAll, max_assoc]
  exact ⟨by rw [happend, ← hitems.1, ← hitem.1], Nat.max_le.mpr ⟨hitems.2, hitem.2⟩⟩

/-- An item, and a comma or the closing bracket. -/
theorem roundOn_item
    (hexpr : Follows bounds nesting height (call .expression) expression.reader)
    {close : Token} {expected : Expected} {read : List Expr × Nat}
    (hread : Measured bounds heightAll read) :
    RoundOn bounds nesting (Measured bounds heightAll) (Measured bounds heightAll)
      (Routine.item call close expected read)
      (fun read => listing expression close expected read.1 read.2) input
      (listing expression close expected read.1 read.2 input) := by
  refine ⟨do
    let item ← expression.reader
    let more ← next (separator? close) expected
    let read := (read.1 ++ [item.1], max read.2 item.2)
    if more then return .inl read else return .inr read, input, ?_, ?_, fun read' rest hread' => ?_⟩
  · unfold Routine.item
    refine (hexpr input).bind fun item rest hitem _ => followsOn_take.bind fun more rest _ _ => ?_
    cases more with
    | true => exact followsOn_pure (measured_append hread hitem)
    | false => exact followsOn_pure (measured_append hread hitem)
  · rw [listing_eq]
    simp only [bind_assoc]
    refine congrFun (bind_congr fun item => bind_congr fun more => ?_) input
    cases more <;> rfl
  · obtain ⟨item, mid, hitem, hrest⟩ := exists_of_bind_ok hread'
    obtain ⟨more, mid', hmore, hrest⟩ := exists_of_bind_ok hrest
    have hlt : mid'.length < input.length :=
      (shorter_of_next hmore).trans (shorter_of_reader hitem)
    cases more with
    | true => cases hrest; exact hlt
    | false => cases hrest

theorem follows_list
    (hexpr : Follows bounds nesting height (call .expression) expression.reader)
    (close : Token) (expected : Expected) :
    Follows bounds nesting heightAll (Routine.list call close expected)
      (listed expression close expected) := by
  intro input
  have hnil : Measured bounds heightAll ([], 0) := ⟨rfl, Nat.zero_le _⟩
  unfold Routine.list
  refine followsOn_peek ?_
  obtain ⟨l, rest, rfl, hl⟩ | hnone := head_cases (·.token = close) input
  · rw [List.head?_cons, Option.map_some, hl, if_pos rfl, listed_close hl]
    exact followsOn_advance (followsOn_pure hnil)
  · rw [if_neg (head?_ne_of_head_ne hnone), listed_items hnone]
    exact followsOn_repeated (fun read : List Expr × Nat =>
      listing expression close expected read.1 read.2) (fun _ _ hread => roundOn_item hexpr hread)
      hnil

/-! ## Atoms and what follows them -/

theorem follows_atom (hpos : 0 < bounds.height)
    (hexpr : Follows bounds nesting height (call .expression) expression.reader)
    (hlist : ∀ close expected, Follows bounds nesting heightAll (call (.list close expected))
      (listed expression close expected)) :
    Follows bounds nesting height (Routine.atom bounds call) (atom bounds expression).reader := by
  intro input
  have hleaf : ∀ e, height e = 1 → Measured bounds height (e, 1) := fun e he => ⟨he.symm, hpos⟩
  unfold Routine.atom
  cases input with
  | nil => exact followsOn_throw
  | cons l rest =>
    refine followsOn_advance ?_
    cases htoken : l.token
    case openParen =>
      simp only [htoken, atom_group htoken]
      refine (hexpr rest).bind fun inner _ hinner _ => ?_
      exact followsOn_expect.bind fun _ _ _ _ => followsOn_pure hinner
    case openBracket =>
      simp only [htoken, atom_array htoken]
      refine (hlist _ _ rest).bind fun items _ hitems _ => ?_
      exact followsOn_wrapped (by rw [height, hitems.1])
    case name id =>
      simp only [htoken]
      refine followsOn_peek ?_
      obtain ⟨o, tail, rfl, ho⟩ | hnone := head_cases (·.token = .openParen) rest
      · rw [List.head?_cons, Option.map_some, ho, if_pos rfl, atom_call htoken ho]
        refine followsOn_advance ((hlist _ _ tail).bind fun arguments _ harguments _ => ?_)
        exact followsOn_wrapped (by rw [height, harguments.1])
      · have hpeek := head?_ne_of_head_ne hnone
        rw [if_neg hpeek, atom_leaf (e := .name id) (by rw [htoken]; rfl) fun _ _ => hpeek]
        exact followsOn_pure (hleaf _ rfl)
    -- Of the other tokens some are atoms on their own, and the rest start no atom.
    all_goals
      simp only [htoken, Token.leaf?]
      first
      | rw [atom_leaf (by rw [htoken]; rfl) (by simp [htoken])]
        exact followsOn_pure (hleaf _ rfl)
      | rw [atom_none fun _ _ h => (List.cons.inj h).1 ▸ (by rw [htoken]; rfl), unexpected, htoken]
        exact followsOn_throw

/-- A member that is selected by its name. -/
theorem roundOn_dot {object : Expr × Nat} (hobject : Measured bounds height object) {dot : Lexeme}
    (hdot : dot.token = .dot) :
    RoundOn bounds nesting (Measured bounds height) (Measured bounds height)
      (Routine.selection bounds call object)
      (fun object => selecting bounds expression object.1 object.2) (dot :: rest)
      (selecting bounds expression object.1 object.2 (dot :: rest)) := by
  refine ⟨do
    let id ← next propertyName? .propertyName
    let depth ← grown bounds object.2
    return .inl (.member object.1 (.literal (.string id)), depth), rest, followsOn_peek ?_, ?_,
    fun object' rest' hobject' => ?_⟩
  · simp only [List.head?_cons, Option.map_some, hdot]
    refine followsOn_advance (followsOn_take.bind fun id _ _ _ => followsOn_wrapped_inl ?_)
    -- A name is a leaf, so it is not the taller part.
    rw [height, height, max_eq_left (one_le_height object.1), hobject.1]
  · rw [selecting_dot hdot]
    simp only [bind_assoc, pure_bind]
    rfl
  · obtain ⟨_, mid, hname, hrest⟩ := exists_of_bind_ok hobject'
    obtain ⟨_, mid', hdepth, hrest⟩ := exists_of_bind_ok hrest
    obtain rfl := eq_of_grown hdepth
    cases hrest
    exact Nat.lt_succ_of_lt (shorter_of_next hname)

/-- A member that is selected by an expression. -/
theorem roundOn_bracket
    (hexpr : Follows bounds nesting height (call .expression) expression.reader)
    {object : Expr × Nat} (hobject : Measured bounds height object) {o : Lexeme}
    (ho : o.token = .openBracket) :
    RoundOn bounds nesting (Measured bounds height) (Measured bounds height)
      (Routine.selection bounds call object)
      (fun object => selecting bounds expression object.1 object.2) (o :: rest)
      (selecting bounds expression object.1 object.2 (o :: rest)) := by
  refine ⟨do
    let property ← expression.reader
    skip .closeBracket .closeBracket
    let depth ← grown bounds (max object.2 property.2)
    return .inl (.member object.1 property.1, depth), rest, followsOn_peek ?_, ?_,
    fun object' rest' hobject' => ?_⟩
  · simp only [List.head?_cons, Option.map_some, ho]
    refine followsOn_advance ((hexpr rest).bind fun property _ hproperty _ => ?_)
    refine followsOn_expect.bind fun _ _ _ _ => followsOn_wrapped_inl ?_
    rw [height, hobject.1, hproperty.1]
  · rw [selecting_bracket ho]
    simp only [bind_assoc, pure_bind]
    rfl
  · obtain ⟨_, mid, hproperty, hrest⟩ := exists_of_bind_ok hobject'
    obtain ⟨_, mid', hclose, hrest⟩ := exists_of_bind_ok hrest
    obtain ⟨_, mid'', hdepth, hrest⟩ := exists_of_bind_ok hrest
    obtain rfl := eq_of_grown hdepth
    cases hrest
    exact Nat.lt_succ_of_lt ((shorter_of_next hclose).trans (shorter_of_reader hproperty))

theorem roundOn_selection
    (hexpr : Follows bounds nesting height (call .expression) expression.reader)
    {object : Expr × Nat} (hobject : Measured bounds height object) :
    RoundOn bounds nesting (Measured bounds height) (Measured bounds height)
      (Routine.selection bounds call object)
      (fun object => selecting bounds expression object.1 object.2) input
      (selecting bounds expression object.1 object.2 input) := by
  obtain ⟨dot, rest, rfl, hdot⟩ | hdot := head_cases (·.token = .dot) input
  · exact roundOn_dot hobject hdot
  obtain ⟨o, rest, rfl, ho⟩ | ho := head_cases (·.token = .openBracket) input
  · exact roundOn_bracket hexpr hobject ho
  rw [selecting_end fun l tail h => ⟨hdot l tail h, ho l tail h⟩]
  refine roundOn_peek ?_
  split
  · exact absurd (by assumption) (head?_ne_of_head_ne hdot)
  · exact absurd (by assumption) (head?_ne_of_head_ne ho)
  · exact roundOn_end hobject

theorem follows_selected
    (hexpr : Follows bounds nesting height (call .expression) expression.reader)
    (hatom : Follows bounds nesting height (call .atom) (atom bounds expression).reader) :
    Follows bounds nesting height (Routine.selected bounds call)
      (selected bounds expression).reader := by
  intro input
  rw [selected_reader]
  unfold Routine.selected
  exact (hatom input).bind fun first _ hfirst _ =>
    followsOn_repeated (fun object : Expr × Nat => selecting bounds expression object.1 object.2)
      (fun _ _ hobject => roundOn_selection hexpr hobject) hfirst

/-! ## Operators -/

theorem follows_prefixed {inner selected : Rule}
    (hinner : Follows bounds nesting height (Routine.nested bounds (call .prefixed)) inner.reader)
    (hselected : Follows bounds nesting height (call .selected) selected.reader) :
    Follows bounds nesting height (Routine.prefixed bounds call)
      (withPrefixes bounds inner selected).reader := by
  intro input
  unfold Routine.prefixed
  refine followsOn_peek ?_
  obtain ⟨l, rest, op, rfl, hop⟩ | ⟨hnone, hpeek⟩ := head_kinds Token.prefix? input
  · rw [List.head?_cons, Option.map_some, Option.bind_some, hop,
      withPrefixes_operator (Token.prefix?_eq_some.mp hop)]
    refine followsOn_advance ((hinner rest).bind fun operand _ hoperand _ => ?_)
    exact followsOn_wrapped (by rw [height, hoperand.1])
  · have hother : ∀ l tail, input = l :: tail → ∀ op : UnaryOp, l.token ≠ op.token := by
      intro l tail hinput op hl
      have hop : l.token.prefix? = some op := Token.prefix?_eq_some.mpr hl
      rw [hnone l tail hinput] at hop
      cases hop
    rw [hpeek, withPrefixes_other hother]
    exact hselected input

/-- An operator that a chain may have at this place, and its right side. -/
theorem roundOn_operation {prefixed : Rule} {k : Nat}
    (hchain : ∀ k', k < k' → k' ≤ BinaryOp.levels →
      Follows bounds nesting height (call (.chain k')) (chainFrom bounds prefixed k').reader)
    {left : Expr × Nat} (hleft : Measured bounds height left) {l : Lexeme} {op : BinaryOp}
    (hop : l.token.operator? k = some op) :
    RoundOn bounds nesting (Measured bounds height) (Measured bounds height)
      (Routine.operation bounds call k left) (climbing bounds prefixed k) (l :: rest)
      (climbing bounds prefixed k left (l :: rest)) := by
  obtain ⟨hl, hlevel⟩ := Token.operator?_eq_some.mp hop
  refine ⟨do
    let right ← (chainFrom bounds prefixed (op.level + 1)).reader
    let depth ← grown bounds (max left.2 right.2)
    return .inl (.binary op left.1 right.1, depth), rest, followsOn_peek ?_, ?_,
    fun left' rest' hleft' => ?_⟩
  · rw [List.head?_cons, Option.map_some, Option.bind_some, hop]
    refine followsOn_advance ((hchain _ (Nat.lt_succ_of_le hlevel) op.level_lt_levels rest).bind
      fun right _ hright _ => ?_)
    exact followsOn_wrapped_inl (by rw [height, hleft.1, hright.1])
  · rw [climbing_operator hl hlevel]
    simp only [bind_assoc, pure_bind]
    rfl
  · obtain ⟨_, mid, hright, hrest⟩ := exists_of_bind_ok hleft'
    obtain ⟨_, mid', hdepth, hrest⟩ := exists_of_bind_ok hrest
    obtain rfl := eq_of_grown hdepth
    cases hrest
    exact Nat.lt_succ_of_lt (shorter_of_reader hright)

theorem follows_chain {prefixed : Rule} {k : Nat}
    (hprefixed : Follows bounds nesting height (call .prefixed) prefixed.reader)
    (hchain : ∀ k', k < k' → k' ≤ BinaryOp.levels →
      Follows bounds nesting height (call (.chain k')) (chainFrom bounds prefixed k').reader) :
    Follows bounds nesting height (Routine.chain bounds call k)
      (chainFrom bounds prefixed k).reader := by
  intro input
  rw [chainFrom_reader]
  unfold Routine.chain
  refine (hprefixed input).bind fun first rest hfirst _ => ?_
  refine followsOn_repeated (climbing bounds prefixed k) (fun left input hleft => ?_) hfirst
  obtain ⟨l, rest, op, rfl, hop⟩ | ⟨hnone, hpeek⟩ := head_kinds (Token.operator? k) input
  · exact roundOn_operation hchain hleft hop
  · have hpast : Past k input := by
      intro l tail hinput op hl
      by_contra hlevel
      have hop : l.token.operator? k = some op :=
        Token.operator?_eq_some.mpr ⟨hl, Nat.not_lt.mp hlevel⟩
      rw [hnone l tail hinput] at hop
      cases hop
    rw [climbing_past hpast]
    refine roundOn_peek ?_
    rw [hpeek]
    exact roundOn_end hleft

theorem follows_conditional {chain : Rule}
    (hchain : Follows bounds nesting height (call (.chain 0)) chain.reader)
    (hexpr : Follows bounds nesting height (call .expression) expression.reader) :
    Follows bounds nesting height (Routine.conditional bounds call)
      (choice bounds chain expression).reader := by
  intro input
  rw [choice_reader]
  unfold Routine.conditional
  refine (hchain input).bind fun test rest htest _ => followsOn_peek ?_
  obtain ⟨q, tail, rfl, hq⟩ | hnone := head_cases (·.token = .question) rest
  · rw [List.head?_cons, Option.map_some, hq, if_pos rfl, choosing_question hq]
    refine followsOn_advance ((hexpr tail).bind fun yes _ hyes _ => ?_)
    refine followsOn_expect.bind fun _ rest _ _ => (hexpr rest).bind fun no _ hno _ => ?_
    exact followsOn_wrapped (by rw [height, htest.1, hyes.1, hno.1])
  · rw [if_neg (head?_ne_of_head_ne hnone), choosing_end hnone]
    exact followsOn_pure htest

end

/-! ## All parts -/

/-- What the parser reads as a part, with so many levels of nesting left for what is inside. -/
def Part.reader (bounds : Bounds) (levels : Nat) : (p : Part) → Reader p.Result
  | .expression => (Expr.expression bounds levels).reader
  | .conditional =>
    (choice bounds (Expr.chain bounds (Expr.prefixed bounds levels))
      (Expr.expression bounds levels)).reader
  | .chain level => (chainFrom bounds (Expr.prefixed bounds levels) level).reader
  | .prefixed => (Expr.prefixed bounds levels).reader
  | .selected => (Expr.selected bounds (Expr.expression bounds levels)).reader
  | .atom => (Expr.atom bounds (Expr.expression bounds levels)).reader
  | .list close expected => listed (Expr.expression bounds levels) close expected

section

variable {bounds : Bounds} {nesting levels : Nat}

/-- With enough stack, the routine of a part follows the parser. -/
def Runs (bounds : Bounds) (nesting levels : Nat) (p : Part) : Prop :=
  ∀ stack, p.frames levels ≤ stack →
    Follows bounds nesting p.height (Routine.run bounds stack p) (p.reader bounds levels)

/-- One place of the stack is for the routine itself, and the others are for what it calls. -/
theorem runs_of_body {p : Part} (h : ∀ stack, p.frames levels ≤ stack + 1 →
    Follows bounds nesting p.height (Routine.body bounds (Routine.run bounds stack) p)
      (p.reader bounds levels)) : Runs bounds nesting levels p := by
  intro stack hle
  cases stack with
  | zero => cases p <;> simp [Part.frames] at hle
  | succ stack => exact h stack hle

/-- All parts follow the parser if expressions do, and what comes after a prefix operator. -/
theorem runs_of_expression (hpos : 0 < bounds.height)
    (hexpr : Runs bounds nesting levels .expression) {inner : Rule}
    (hprefixed : prefixed bounds levels = withPrefixes bounds inner
      (selected bounds (expression bounds levels)))
    (hinner : ∀ stack, Part.prefixed.frames levels ≤ stack + 1 →
      Follows bounds nesting height
        (Routine.nested bounds (Routine.run bounds stack .prefixed)) inner.reader)
    (p : Part) : Runs bounds nesting levels p := by
  have hlist : ∀ close expected, Runs bounds nesting levels (.list close expected) :=
    fun close expected => runs_of_body fun stack hle =>
      follows_list (hexpr stack (Nat.le_of_succ_le_succ hle)) close expected
  have hatom : Runs bounds nesting levels .atom := runs_of_body fun stack hle =>
    follows_atom hpos (hexpr stack (by simp only [Part.frames] at hle ⊢; omega))
      fun close expected => hlist close expected stack (Nat.le_of_succ_le_succ hle)
  have hselected : Runs bounds nesting levels .selected := runs_of_body fun stack hle =>
    follows_selected (hexpr stack (by simp only [Part.frames] at hle ⊢; omega))
      (hatom stack (Nat.le_of_succ_le_succ hle))
  have hoperand : Runs bounds nesting levels .prefixed := by
    refine runs_of_body fun stack hle => ?_
    rw [Part.reader, hprefixed]
    exact follows_prefixed (hinner stack hle) (hselected stack (Nat.le_of_succ_le_succ hle))
  -- The operators of a level call the levels above it.
  have hchain : ∀ n k, BinaryOp.levels - k = n → Runs bounds nesting levels (.chain k) := by
    intro n
    induction n using Nat.strongRecOn with
    | ind n ih =>
      intro k hk
      refine runs_of_body fun stack hle => follows_chain ?_ fun k' hlt hle' => ?_
      · exact hoperand stack (by simp only [Part.frames] at hle ⊢; omega)
      · exact ih (BinaryOp.levels - k') (by omega) k' rfl stack
          (by simp only [Part.frames] at hle ⊢; omega)
  cases p with
  | expression => exact hexpr
  | conditional =>
    refine runs_of_body fun stack hle => follows_conditional (hchain _ 0 rfl stack ?_) ?_
    · exact Nat.le_of_succ_le_succ hle
    · exact hexpr stack (by simp only [Part.frames] at hle ⊢; omega)
  | chain k => exact hchain _ k rfl
  | prefixed => exact hoperand
  | selected => exact hselected
  | atom => exact hatom
  | list close expected => exact hlist close expected

/-- Wherever the levels that are open and those that are left make up the limit, every part follows
the parser. -/
theorem runs (hpos : 0 < bounds.height) (h : nesting + levels = bounds.height) (p : Part) :
    Runs bounds nesting levels p := by
  induction levels generalizing nesting p with
  | zero =>
    have hfull : ∀ {m : Routine (Expr × Nat)},
        Follows bounds nesting height (Routine.nested bounds m) (exhausted bounds).reader :=
      fun _ => followsOn_nested_full (Nat.le_of_eq h.symm)
    refine runs_of_expression hpos (runs_of_body fun stack _ => ?_) (by rw [prefixed])
      (fun _ _ => hfull) p
    rw [Part.reader, expression]
    exact hfull
  | succ levels ih =>
    have hlt : nesting < bounds.height := by omega
    have hdeeper : nesting + 1 + levels = bounds.height := by omega
    refine runs_of_expression hpos (runs_of_body fun stack hle input => ?_) (by rw [prefixed])
      (fun stack hle input => ?_) p
    · rw [Part.reader, expression]
      refine followsOn_nested hlt (ih hdeeper .conditional stack ?_ input)
      simp only [Part.frames] at hle ⊢
      omega
    · refine followsOn_nested hlt (ih hdeeper .prefixed stack ?_ input)
      simp only [Part.frames] at hle ⊢
      omega

/-! ## Whole texts -/

/-- From the start of a text, the routines come to what the parser makes of it. -/
theorem followsOn_whole (hpos : 0 < bounds.height) {stack : Nat}
    (hstack : Part.expression.frames bounds.height ≤ stack) (input : List Lexeme) :
    FollowsOn bounds 0 (fun e => e.height ≤ bounds.height) (Routine.whole bounds stack) input
      ((ofLexemes bounds bounds.height input).map (·, [])) := by
  rw [map_ofLexemes]
  unfold Routine.whole
  have hruns := runs hpos (Nat.zero_add bounds.height) .expression stack hstack input
  refine hruns.bind fun read rest hread _ => ?_
  cases rest with
  | nil => exact followsOn_pure ((Nat.le_of_eq hread.1.symm).trans hread.2)
  | cons l rest => exact followsOn_advance followsOn_throw

end

/-- What is paired with a result can be taken away again. -/
theorem map_fst {ε α β : Type} (x : Except ε α) (b : β) :
    (x.map (·, b)).map Prod.fst = x := by
  cases x <;> rfl

theorem whole_of_scan {source : String} {lexemes : List Lexeme}
    (h : Lexeme.scan source = .ok lexemes) {stack : Nat}
    (hstack : Part.expression.frames maxDepth ≤ stack) :
    ∃ c, Routine.whole ⟨source.utf8ByteSize, maxDepth⟩ stack ⟨lexemes, 0, 0⟩ =
        some (parse source, c) ∧ c.nesting = 0 ∧ c.peak ≤ maxDepth ∧
      ∀ e, parse source = .ok e → e.height ≤ maxDepth := by
  let bounds : Bounds := ⟨source.utf8ByteSize, maxDepth⟩
  have hpos : 0 < bounds.height := show 0 < maxDepth by decide
  obtain ⟨out, c, hrun, hnesting, hpeak, hread, hheight⟩ := followsOn_whole hpos hstack lexemes 0
  have hsame : out = parse source := by
    rw [parse_of_scan h, ← map_fst out c.rest, hread, map_fst]
  exact ⟨c, hsame ▸ hrun, hnesting, hpeak, fun e he => hheight e (hsame.trans he)⟩

/-- Expressions that are accepted are bounded, and the parser counts exactly. With
`13 * maxDepth + 1` places on the stack the routines of the parser come to what the parser makes of
a text, and no more than `maxDepth` levels of nesting are ever open. Each of them ends from wherever
it starts, leaves as many levels open as it has found, whether it succeeds or fails, and gives the
exact height of what it has read. What is accepted is therefore at most `maxDepth` nodes tall, and
as many places on the stack are enough to evaluate it, to collect its calls and to release it. -/
theorem nesting_bounded (source : String) :
    let bounds : Bounds := ⟨source.utf8ByteSize, maxDepth⟩
    (∀ (p : Part) (c : Cursor) (stack : Nat), c.nesting ≤ maxDepth →
      p.frames (maxDepth - c.nesting) ≤ stack →
      ∃ out c', Routine.run bounds stack p c = some (out, c') ∧ c'.nesting = c.nesting ∧
        c'.peak ≤ max c.peak maxDepth ∧
        out.map (·, c'.rest) = p.reader bounds (maxDepth - c.nesting) c.rest ∧
        ∀ tree depth, out = .ok (tree, depth) → depth = p.height tree ∧ depth ≤ maxDepth) ∧
    (∀ lexemes stack, Lexeme.scan source = .ok lexemes → 13 * maxDepth + 1 ≤ stack →
      ∃ c, Routine.whole bounds stack ⟨lexemes, 0, 0⟩ = some (parse source, c) ∧
        c.nesting = 0 ∧ c.peak ≤ maxDepth) ∧
    ∀ e, parse source = .ok e → e.height ≤ maxDepth ∧
      ∀ stack, maxDepth ≤ stack →
        (∀ library datum,
          onStack (evaluating library datum) stack e = some (e.eval library datum)) ∧
        onStack collecting stack e = some e.calls ∧ onStack releasing stack e = some () := by
  intro bounds
  have hpos : 0 < bounds.height := show 0 < maxDepth by decide
  refine ⟨fun p c stack hle hstack => ?_, fun lexemes stack hscan hstack => ?_, fun e hparse => ?_⟩
  · obtain ⟨input, nesting, peak⟩ := c
    have hlevels : nesting + (maxDepth - nesting) = bounds.height := Nat.add_sub_of_le hle
    obtain ⟨out, c', hrun, hnesting, hpeak, hread, hgood⟩ :=
      runs hpos hlevels p stack hstack input peak
    exact ⟨out, c', hrun, hnesting, hpeak, hread, fun tree depth => hgood (tree, depth)⟩
  · obtain ⟨c, hrun, hnesting, hpeak, -⟩ := whole_of_scan hscan hstack
    exact ⟨c, hrun, hnesting, hpeak⟩
  · obtain ⟨lexemes, hscan, -⟩ := bind_eq_ok.mp hparse
    obtain ⟨-, -, -, -, hheight⟩ := whole_of_scan hscan (Nat.le_refl _)
    have hle : e.height ≤ maxDepth := hheight e hparse
    refine ⟨hle, fun stack hstack => ⟨fun library datum => ?_, ?_, ?_⟩⟩
    · exact onStack_of_height_le (evaluating_computes library datum) (hle.trans hstack)
    · exact onStack_of_height_le collecting_computes (hle.trans hstack)
    · exact onStack_of_height_le releasing_computes (hle.trans hstack)

/-- A call with a prefixed operand in parentheses and an empty list. -/
theorem nesting_bounded_call :
    let source := "f(-(a), [])"
    let e : Expr := .call "f" [.unary .negate (.name "a"), .array []] 0
    ∃ lexemes c, Lexeme.scan source = .ok lexemes ∧
      Routine.whole ⟨source.utf8ByteSize, maxDepth⟩ (13 * maxDepth + 1) ⟨lexemes, 0, 0⟩ =
        some (.ok e, c) ∧ c.nesting = 0 ∧ c.peak ≤ maxDepth ∧ e.height = 3 ∧
      onStack collecting maxDepth e = some [("f", 0)] := by
  intro source e
  obtain ⟨-, hwhole, haccepted⟩ := nesting_bounded source
  have hscan : Lexeme.scan source = .ok [⟨.name "f", 0, 1⟩, ⟨.openParen, 1, 2⟩, ⟨.minus, 2, 3⟩,
      ⟨.openParen, 3, 4⟩, ⟨.name "a", 4, 5⟩, ⟨.closeParen, 5, 6⟩, ⟨.comma, 6, 7⟩,
      ⟨.openBracket, 8, 9⟩, ⟨.closeBracket, 9, 10⟩, ⟨.closeParen, 10, 11⟩] := by
    decide +kernel
  have hparse : parse source = .ok e := by
    rw [parse_of_scan hscan, show source.utf8ByteSize = 11 from rfl]
    cbv
  obtain ⟨c, hrun, hnesting, hpeak⟩ := hwhole _ _ hscan (Nat.le_refl _)
  obtain ⟨-, hstack⟩ := haccepted e hparse
  rw [hparse] at hrun
  exact ⟨_, c, hscan, hrun, hnesting, hpeak, rfl, (hstack maxDepth (Nat.le_refl _)).2.1⟩

end Expr

end Dataflow
