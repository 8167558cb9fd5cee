import Dataflow.Expr.Parser

/-!
# Limits only cut short

A result is another one or cut short (`CutShort`) if it is the same or the error that a limit has
been met. Every rule of the parser is so related to itself under higher limits, and so is the whole
parser by induction on the levels that are left (`cutShort_ofLexemes`): no limit turns one tree into
another, or one error into another.
-/

namespace Dataflow

namespace Expr

/-! ## Loops, one round at a time

The definitions of the loops match on results; here one round is a sequence of steps. -/

section

variable {bounds : Bounds} {rest : List Lexeme}

theorem members_dot {expression : Rule} {bound depth : Nat} {object : Expr} {dot l : Lexeme}
    {id : String} (hdot : dot.token = .dot) (hl : l.token = .name id)
    (h : (dot :: l :: rest).length < bound) :
    members bounds expression bound object depth (dot :: l :: rest) h =
      grow bounds depth rest >>= fun depth =>
        members bounds expression bound (.member object (.literal (.string id))) depth rest
          (Nat.lt_of_succ_lt (Nat.lt_of_succ_lt h)) := by
  rw [members.eq_def]
  simp only [hdot, hl, if_true]
  cases grow bounds depth rest <;> rfl

theorem members_bracket {expression : Rule} {bound depth : Nat} {object : Expr} {o : Lexeme}
    (ho : o.token = .openBracket) (h : (o :: rest).length < bound) :
    members bounds expression bound object depth (o :: rest) h =
      expression rest >>= fun property =>
        expect .closeBracket .closeBracket property.rest >>= fun after =>
          grow bounds (max depth property.depth) after.1 >>= fun depth =>
            members bounds expression bound (.member object property.expr) depth after.1
              (Nat.lt_trans after.2 (Nat.lt_trans property.shorter (Nat.lt_of_succ_lt h))) := by
  rw [members.eq_def]
  simp only [ho, if_true, reduceCtorEq, if_false]
  cases expression rest with
  | error e => rfl
  | ok property =>
    dsimp only [bind, Except.bind]
    cases expect .closeBracket .closeBracket property.rest with
    | error e => rfl
    | ok after =>
      dsimp only
      cases grow bounds (max depth property.depth) after.1 <;> rfl

theorem joined_cons {operand : Rule} {operators : Operators} {bound : Nat} {left : Expr}
    {depth : Nat} {l : Lexeme} {op : BinaryOp} (hop : operators l.token = some op)
    (h : (l :: rest).length < bound) :
    joined bounds operand operators bound left depth (l :: rest) h =
      operand rest >>= fun right =>
        grow bounds (max depth right.depth) right.rest >>= fun depth =>
          joined bounds operand operators bound (.binary op left right.expr) depth right.rest
            (Nat.lt_trans right.shorter (Nat.lt_of_succ_lt h)) := by
  rw [joined]
  simp only [hop]
  cases operand rest with
  | error e => rfl
  | ok right =>
    dsimp only [bind, Except.bind]
    cases grow bounds (max depth right.depth) right.rest <;> rfl

end

/-! ## Cutting short -/

/-- The result is the other one, or the error that a limit has been met. -/
def CutShort {α : Type} (x y : Except SyntaxError α) : Prop :=
  x = y ∨ ∃ offset, x = .error (.tooDeep offset)

theorem CutShort.rfl {α : Type} {x : Except SyntaxError α} : CutShort x x := .inl (Eq.refl x)

theorem CutShort.bind {α β : Type} {x y : Except SyntaxError α} {f g : α → Except SyntaxError β}
    (h : CutShort x y) (hf : ∀ a, CutShort (f a) (g a)) : CutShort (x >>= f) (y >>= g) := by
  obtain rfl | ⟨offset, rfl⟩ := h
  · cases x with
    | error e => exact CutShort.rfl
    | ok a => exact hf a
  · exact .inr ⟨offset, Eq.refl _⟩

/-- The limits of one are no lower than those of the other, and both are for the same text. -/
structure Bounds.Below (low high : Bounds) : Prop where
  finish : low.finish = high.finish
  height : low.height ≤ high.height

/-- What one rule reads is what the other reads, or cut short. -/
def Rule.Below (low high : Rule) : Prop := ∀ input, CutShort (low input) (high input)

theorem cutShort_grow {low high : Bounds} (h : low.Below high) (child : Nat) (rest : List Lexeme) :
    CutShort (grow low child rest) (grow high child rest) := by
  unfold grow
  split
  · rename_i hlow
    rw [if_pos (Nat.lt_of_lt_of_le hlow h.height)]
    exact CutShort.rfl
  · exact .inr ⟨_, Eq.refl _⟩

section

variable {low high : Bounds} {lowExpression highExpression : Rule}

/-! ## Atoms and what follows them -/

theorem cutShort_items (hexpr : lowExpression.Below highExpression) {close : Token}
    {expected : Expected} {bound : Nat} {read : List Expr} {depth : Nat} {input : List Lexeme}
    {h : input.length ≤ bound} :
    CutShort (items lowExpression close expected bound read depth input h)
      (items highExpression close expected bound read depth input h) := by
  induction hn : input.length using Nat.strongRecOn generalizing input read depth with
  | ind n ih =>
    rw [items.eq_def lowExpression, items.eq_def highExpression]
    obtain heq | ⟨offset, hdeep⟩ := hexpr input
    · -- Both loops have read the same item, and go on from the same place.
      rw [heq]
      cases highExpression input with
      | error e => exact CutShort.rfl
      | ok item =>
        obtain ⟨e, itemDepth, rest, hshort⟩ := item
        cases rest with
        | nil => exact CutShort.rfl
        | cons l rest =>
          rw [List.length_cons] at hshort
          dsimp only
          split
          · exact ih rest.length (by omega) (Eq.refl _)
          · exact CutShort.rfl
    · simp only [hdeep]
      exact .inr ⟨offset, Eq.refl _⟩

theorem cutShort_list (hexpr : lowExpression.Below highExpression) {close : Token}
    {expected : Expected} {input : List Lexeme} :
    CutShort (list lowExpression close expected input)
      (list highExpression close expected input) := by
  cases input with
  | nil => exact cutShort_items hexpr
  | cons l rest =>
    simp only [list]
    split
    · exact CutShort.rfl
    · exact cutShort_items hexpr

theorem below_atom (hbounds : low.Below high) (hexpr : lowExpression.Below highExpression) :
    Rule.Below (atom low lowExpression) (atom high highExpression) := by
  intro input
  cases input with
  | nil => exact CutShort.rfl
  | cons l rest =>
    simp only [atom]
    split
    case h_6 =>
      exact (hexpr rest).bind fun inner => CutShort.rfl
    case h_7 =>
      exact (cutShort_list hexpr).bind fun items =>
        (cutShort_grow hbounds items.depth items.rest).bind fun depth => CutShort.rfl
    case h_8 =>
      split
      · exact (cutShort_list hexpr).bind fun arguments =>
          (cutShort_grow hbounds arguments.depth arguments.rest).bind fun depth => CutShort.rfl
      · exact CutShort.rfl
    all_goals exact CutShort.rfl

theorem cutShort_members (hbounds : low.Below high) (hexpr : lowExpression.Below highExpression)
    {bound : Nat} {object : Expr} {depth : Nat} {input : List Lexeme} {h : input.length < bound} :
    CutShort (members low lowExpression bound object depth input h)
      (members high highExpression bound object depth input h) := by
  induction hn : input.length using Nat.strongRecOn generalizing input object depth with
  | ind n ih =>
    cases input with
    | nil =>
      rw [members.eq_def low, members.eq_def high]
      exact CutShort.rfl
    | cons l rest =>
      rw [List.length_cons] at hn
      by_cases hopen : l.token = .openBracket
      · rw [members_bracket hopen, members_bracket hopen]
        refine (hexpr rest).bind fun property => CutShort.rfl.bind fun after => ?_
        refine (cutShort_grow hbounds _ after.1).bind fun depth => ?_
        have hproperty := property.shorter
        have hafter := after.2
        exact ih after.1.length (by omega) (Eq.refl _)
      · rw [members.eq_def low, members.eq_def high]
        simp only [hopen, if_false]
        split
        · cases rest with
          | nil => exact CutShort.rfl
          | cons p rest =>
            rw [List.length_cons] at hn
            dsimp only
            split
            · obtain heq | ⟨offset, hdeep⟩ := cutShort_grow hbounds depth rest
              · rw [heq]
                cases grow high depth rest with
                | error e => exact CutShort.rfl
                | ok depth => exact ih rest.length (by omega) (Eq.refl _)
              · rw [hdeep]
                exact .inr ⟨offset, Eq.refl _⟩
            · exact CutShort.rfl
        · exact CutShort.rfl

theorem below_selected (hbounds : low.Below high) (hexpr : lowExpression.Below highExpression) :
    Rule.Below (selected low lowExpression) (selected high highExpression) :=
  fun input => (below_atom hbounds hexpr input).bind fun _ => cutShort_members hbounds hexpr

/-! ## Operators -/

theorem cutShort_joined (hbounds : low.Below high) {lowOperand highOperand : Rule}
    (hoperand : lowOperand.Below highOperand) {operators : Operators} {bound : Nat} {left : Expr}
    {depth : Nat} {input : List Lexeme} {h : input.length < bound} :
    CutShort (joined low lowOperand operators bound left depth input h)
      (joined high highOperand operators bound left depth input h) := by
  induction hn : input.length using Nat.strongRecOn generalizing input left depth with
  | ind n ih =>
    cases input with
    | nil =>
      rw [joined, joined]
      exact CutShort.rfl
    | cons l rest =>
      rw [List.length_cons] at hn
      cases hop : operators l.token with
      | none =>
        rw [joined, joined]
        simp only [hop]
        exact CutShort.rfl
      | some op =>
        rw [joined_cons hop, joined_cons hop]
        refine (hoperand rest).bind fun right => ?_
        refine (cutShort_grow hbounds _ right.rest).bind fun depth => ?_
        have hright := right.shorter
        exact ih right.rest.length (by omega) (Eq.refl _)

theorem below_chain (hbounds : low.Below high) {lowPrefixed highPrefixed : Rule}
    (hprefixed : lowPrefixed.Below highPrefixed) :
    Rule.Below (chain low lowPrefixed) (chain high highPrefixed) := by
  unfold chain
  induction operatorLevels with
  | nil => exact hprefixed
  | cons operators levels ih =>
    exact fun input => (ih input).bind fun first => cutShort_joined hbounds ih

theorem below_choice (hbounds : low.Below high) {lowChain highChain : Rule}
    (hchain : lowChain.Below highChain) (hexpr : lowExpression.Below highExpression) :
    Rule.Below (choice low lowChain lowExpression) (choice high highChain highExpression) := by
  intro input
  refine (hchain input).bind fun test => ?_
  -- From here on both go by what the test has left.
  split
  · exact CutShort.rfl
  · rename_i l rest hrest
    split
    · refine (hexpr rest).bind fun yes => CutShort.rfl.bind fun after => ?_
      refine (hexpr after.1).bind fun no => ?_
      exact (cutShort_grow hbounds _ no.rest).bind fun depth => CutShort.rfl
    · exact CutShort.rfl

theorem below_withPrefixes (hbounds : low.Below high)
    {lowInner highInner lowSelected highSelected : Rule} (hinner : lowInner.Below highInner)
    (hselected : lowSelected.Below highSelected) :
    Rule.Below (withPrefixes low lowInner lowSelected)
      (withPrefixes high highInner highSelected) := by
  intro input
  cases input with
  | nil => exact hselected []
  | cons l rest =>
    simp only [withPrefixes]
    split
    · refine (hinner rest).bind fun operand => ?_
      exact (cutShort_grow hbounds _ operand.rest).bind fun depth => CutShort.rfl
    · refine (hinner rest).bind fun operand => ?_
      exact (cutShort_grow hbounds _ operand.rest).bind fun depth => CutShort.rfl
    · exact hselected (l :: rest)

end

/-! ## Nesting -/

theorem below_exhausted (bounds : Bounds) (rule : Rule) : Rule.Below (exhausted bounds) rule :=
  fun _ => .inr ⟨_, Eq.refl _⟩

theorem below_nested {low high : Bounds} (hbounds : low.Below high) {levels levels' : Nat}
    (hle : levels ≤ levels') :
    Rule.Below (expression low levels) (expression high levels') ∧
      Rule.Below (prefixed low levels) (prefixed high levels') := by
  -- Each level opens the next one of both, and the lower limit is reached first.
  induction levels generalizing levels' with
  | zero =>
    have hexpr : Rule.Below (expression low 0) (expression high levels') := by
      rw [expression.eq_def low]
      exact below_exhausted low _
    refine ⟨hexpr, ?_⟩
    rw [prefixed.eq_def low, prefixed.eq_def high]
    exact below_withPrefixes hbounds (below_exhausted low _) (below_selected hbounds hexpr)
  | succ levels ih =>
    obtain _ | levels' := levels'
    · exact absurd hle (Nat.not_succ_le_zero levels)
    obtain ⟨hinner, hprefixed⟩ := ih (Nat.le_of_succ_le_succ hle)
    have hexpr : Rule.Below (expression low (levels + 1)) (expression high (levels' + 1)) := by
      rw [expression.eq_def low, expression.eq_def high]
      exact below_choice hbounds (below_chain hbounds hprefixed) hinner
    refine ⟨hexpr, ?_⟩
    rw [prefixed.eq_def low, prefixed.eq_def high]
    exact below_withPrefixes hbounds hprefixed (below_selected hbounds hexpr)

/-- Lower limits only ever cut short. -/
theorem cutShort_ofLexemes {low high : Bounds} (hbounds : low.Below high) {levels levels' : Nat}
    (hle : levels ≤ levels') (input : List Lexeme) :
    CutShort (ofLexemes low levels input) (ofLexemes high levels' input) :=
  ((below_nested hbounds hle).1 input).bind fun _ => CutShort.rfl

end Expr

end Dataflow
