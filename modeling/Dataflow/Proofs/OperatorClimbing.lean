import Dataflow.Proofs.EarliestErrors

/-!
# All levels of operators in one loop

A chain reads the operators of one level at a time: those of the loosest level join chains of the
next, and so on. It could as well read them in one loop, which looks at the level of each operator
that comes next and takes its right side from the levels above.

`climbing` is what a chain does after its first operand. Where no operator of its levels comes next,
it is done (`climbing_past`); otherwise it reads the right side of the operator and goes on as
before (`climbing_operator`), whatever the level. This holds since a chain never stops in front of
an operator that it could have read (`past_chainFrom`).
-/

namespace Dataflow

namespace Expr

/-! ## Sequences of readers -/

section

variable {α β : Type} {m m' : Reader α} {f g : α → Reader β} {input input' rest : List Lexeme}

/-- What a sequence gives, its second reader gives on what the first has left. -/
theorem exists_of_bind_ok {b : β} (h : (m >>= f) input = .ok (b, rest)) :
    ∃ a mid, m input = .ok (a, mid) ∧ f a mid = .ok (b, rest) := by
  cases hm : m input with
  | error e => exact nomatch (bind_of_error hm).symm.trans h
  | ok r => exact ⟨r.1, r.2, rfl, (bind_of_ok hm).symm.trans h⟩

/-- Sequences are the same if the second readers are, on what the first has left. -/
theorem bind_congr_ok (h : ∀ a rest, m input = .ok (a, rest) → f a rest = g a rest) :
    (m >>= f) input = (m >>= g) input := by
  cases hm : m input with
  | error e => rw [bind_of_error hm, bind_of_error hm]
  | ok r => rw [bind_of_ok hm, bind_of_ok hm, h r.1 r.2 hm]

/-- Sequences are the same if the first readers are, each on its own input. -/
theorem bind_congr_left (h : m input = m' input') : (m >>= f) input = (m' >>= f) input' := by
  dsimp only [bind, StateT.bind]
  rw [h]

end

variable {bounds : Bounds} {prefixed : Rule} {k : Nat} {operators : Operators}
  {input rest : List Lexeme}

/-! ## Where chains stop -/

/-- No operator of a level or a tighter one comes next. -/
def Past (k : Nat) (input : List Lexeme) : Prop :=
  ∀ l tail, input = l :: tail → ∀ op : BinaryOp, l.token = op.token → op.level < k

theorem past_levels (input : List Lexeme) : Past BinaryOp.levels input :=
  fun _ _ _ op _ => op.level_lt_levels

theorem Past.mono {k' : Nat} (h : Past k input) (hle : k ≤ k') : Past k' input :=
  fun l tail hinput op hl => Nat.lt_of_lt_of_le (h l tail hinput op hl) hle

theorem past_operator {l : Lexeme} {op : BinaryOp} (hl : l.token = op.token) :
    Past (op.level + 1) (l :: rest) := by
  intro l' tail hinput op' hl'
  obtain ⟨rfl, -⟩ := List.cons.inj hinput
  obtain rfl := BinaryOp.token_injective (hl.symm.trans hl')
  exact Nat.lt_succ_self _

theorem Past.operators_eq_none (h : Past k input) (hk : operatorLevels[k]? = some operators) :
    ∀ l tail, input = l :: tail → operators l.token = none := by
  intro l tail hinput
  cases hop : operators l.token with
  | none => rfl
  | some op =>
    obtain ⟨htoken, hlevel⟩ := (operators_eq_some hk).mp hop
    exact absurd (h l tail hinput op htoken) (Nat.not_lt.mpr (Nat.le_of_eq hlevel.symm))

theorem eq_of_grown {child depth : Nat} (h : grown bounds child input = .ok (depth, rest)) :
    input = rest := by
  rw [grown] at h
  cases hgrow : grow bounds child input with
  | error e =>
    rw [hgrow] at h
    exact nomatch h
  | ok d =>
    rw [hgrow] at h
    exact congrArg Prod.snd (Except.ok.inj h)

/-- The operators of a level end in front of a token that is none of them. -/
theorem past_joining {operand : Rule} (hk : operatorLevels[k]? = some operators)
    (hoperand : ∀ input r rest, operand.reader input = .ok (r, rest) → Past (k + 1) rest)
    {left : Expr} {depth : Nat} {r : Expr × Nat} (hinput : Past (k + 1) input)
    (hr : joining bounds operand operators left depth input = .ok (r, rest)) : Past k rest := by
  -- The induction is on what is left; the loop goes on behind the right side that it has read.
  induction hlen : input.length using Nat.strongRecOn generalizing input left depth with
  | ind n ih =>
    obtain ⟨l, tail, rfl, op, hop⟩ | hend :=
      head_cases (fun l => ∃ op, operators l.token = some op) input
    · rw [joining_operator hop] at hr
      obtain ⟨⟨e, rightDepth⟩, mid, hright, hr⟩ := exists_of_bind_ok hr
      obtain ⟨hshort, -⟩ := reader_eq_ok.mp hright
      obtain ⟨_, mid', hgrown, hr⟩ := exists_of_bind_ok hr
      obtain rfl := eq_of_grown hgrown
      rw [List.length_cons] at hlen
      exact ih mid.length (by omega) (hoperand tail _ mid hright) hr rfl
    · rw [joining_end fun l tail h => Option.eq_none_iff_forall_ne_some.mpr fun op hop =>
        hend l tail h ⟨op, hop⟩] at hr
      cases hr
      intro l tail hl op htoken
      refine Nat.lt_of_le_of_ne (Nat.le_of_lt_succ (hinput l tail hl op htoken)) fun hlevel => ?_
      exact hend l tail hl ⟨op, (operators_eq_some hk).mpr ⟨htoken, hlevel⟩⟩

/-- A chain never stops in front of an operator that it could have read. -/
theorem past_chainFrom (hk : k ≤ BinaryOp.levels) {r : Expr × Nat}
    (hr : (chainFrom bounds prefixed k).reader input = .ok (r, rest)) : Past k rest := by
  -- Induction on the levels above, starting from the tightest.
  obtain ⟨n, hn⟩ := Nat.exists_eq_add_of_le hk
  induction n generalizing k input r rest with
  | zero =>
    obtain rfl : BinaryOp.levels = k := hn
    exact past_levels rest
  | succ n ih =>
    have hlt : k < BinaryOp.levels := by omega
    obtain ⟨operators, hsome⟩ := exists_operators hlt
    rw [chainFrom_of_some hsome, level_reader] at hr
    obtain ⟨first, mid, hfirst, hr⟩ := exists_of_bind_ok hr
    have hoperand : ∀ input r rest,
        (chainFrom bounds prefixed (k + 1)).reader input = .ok (r, rest) → Past (k + 1) rest :=
      fun input r rest hr => ih hlt hr (by omega)
    exact past_joining hsome hoperand (hoperand input first mid hfirst) hr

/-! ## Going on after an operand -/

/-- What follows an operand at each of some levels, from the tightest on. -/
def joiningAll (bounds : Bounds) (prefixed : Rule) :
    List Operators → Expr × Nat → Reader (Expr × Nat)
  | [], left => pure left
  | operators :: tighter, left => do
    let left ← joiningAll bounds prefixed tighter left
    joining bounds (tighter.foldr (level bounds) prefixed) operators left.1 left.2

/-- What follows the first operand of a chain. -/
def climbing (bounds : Bounds) (prefixed : Rule) (k : Nat) (left : Expr × Nat) :
    Reader (Expr × Nat) :=
  joiningAll bounds prefixed (operatorLevels.drop k) left

theorem foldr_level_reader (levels : List Operators) :
    (levels.foldr (level bounds) prefixed).reader = (do
      let first ← prefixed.reader
      joiningAll bounds prefixed levels first) := by
  induction levels with
  | nil => exact (bind_pure _).symm
  | cons operators tighter ih =>
    rw [List.foldr_cons, level_reader, ih, bind_assoc]
    rfl

theorem chainFrom_reader (k : Nat) :
    (chainFrom bounds prefixed k).reader = (do
      let first ← prefixed.reader
      climbing bounds prefixed k first) :=
  foldr_level_reader _

theorem climbing_of_some (hk : operatorLevels[k]? = some operators) (left : Expr × Nat) :
    climbing bounds prefixed k left = (do
      let left ← climbing bounds prefixed (k + 1) left
      joining bounds (chainFrom bounds prefixed (k + 1)) operators left.1 left.2) := by
  obtain ⟨hlt, rfl⟩ := List.getElem?_eq_some_iff.mp hk
  rw [climbing, List.drop_eq_getElem_cons hlt]
  rfl

/-- A chain is done where none of its operators comes next. -/
theorem climbing_past (hpast : Past k input) (left : Expr × Nat) :
    climbing bounds prefixed k left input = .ok (left, input) := by
  -- Induction on the levels from `k` up, of which there may be none.
  induction hn : BinaryOp.levels - k generalizing k with
  | zero =>
    have hnone : operatorLevels.drop k = [] := List.drop_eq_nil_of_le (Nat.sub_eq_zero_iff_le.mp hn)
    rw [climbing, hnone]
    rfl
  | succ n ih =>
    have hlt : k < BinaryOp.levels := by omega
    obtain ⟨operators, hsome⟩ := exists_operators hlt
    rw [climbing_of_some hsome, bind_of_ok (ih (hpast.mono (Nat.le_succ k)) (by omega))]
    exact joining_end (hpast.operators_eq_none hsome)

/-- An operator of a chain takes its right side from the levels above its own, and the chain goes
on with the operation as its operand. -/
theorem climbing_operator {l : Lexeme} {op : BinaryOp} (hl : l.token = op.token)
    (hk : k ≤ op.level) (left : Expr × Nat) :
    climbing bounds prefixed k left (l :: rest) = (do
      let right ← (chainFrom bounds prefixed (op.level + 1)).reader
      let depth ← grown bounds (max left.2 right.2)
      climbing bounds prefixed k (.binary op left.1 right.1, depth)) rest := by
  -- Induction on the levels from `k` up to that of the operator.
  obtain ⟨n, hn⟩ := Nat.exists_eq_add_of_le hk
  induction n generalizing k with
  | zero =>
    obtain rfl : op.level = k := hn
    obtain ⟨operators, hsome⟩ := exists_operators op.level_lt_levels
    have hop : operators l.token = some op := (operators_eq_some hsome).mpr ⟨hl, rfl⟩
    rw [climbing_of_some hsome,
      bind_of_ok (climbing_past (past_operator hl) left), joining_operator hop]
    -- After the right side no tighter operator is left, so the loop of this level goes on.
    refine bind_congr_ok fun right mid hright => bind_congr_ok fun depth mid' hgrown => ?_
    obtain rfl := eq_of_grown hgrown
    have hpast : Past (op.level + 1) mid := past_chainFrom op.level_lt_levels hright
    rw [climbing_of_some hsome, bind_of_ok (climbing_past hpast _)]
  | succ n ih =>
    have hlt : k < op.level := by omega
    obtain ⟨operators, hsome⟩ := exists_operators (Nat.lt_trans hlt op.level_lt_levels)
    rw [climbing_of_some hsome, bind_congr_left (ih hlt (by omega))]
    simp only [bind_assoc, climbing_of_some hsome]

end Expr

end Dataflow
