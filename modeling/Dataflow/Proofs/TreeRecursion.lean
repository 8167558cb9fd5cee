import Dataflow.Expr.Eval

/-!
# How deep a recursion over a tree goes

A recursion over trees says what is done at a node by what it makes of the trees below it. On a
stack it has only so many places for calls inside each other (`onStack`); it comes to nothing if it
needs more. What is done at a node `Computes` a function if it gives the value of the function where
the calls for the trees below give theirs.

Each call goes one level down, so the height of a tree is enough of a stack
(`onStack_of_height_le`). Evaluating a tree, collecting its calls and releasing it are such
recursions.
-/

namespace Dataflow

namespace Expr

/-- The trees just below a node. -/
def children : Expr → List Expr
  | .literal _ => []
  | .array items => items
  | .name _ => []
  | .member object property => [object, property]
  | .unary _ operand => [operand]
  | .binary _ left right => [left, right]
  | .conditional test yes no => [test, yes, no]
  | .call _ arguments _ => arguments

theorem height_le_heightAll {c : Expr} {es : List Expr} (h : c ∈ es) :
    c.height ≤ heightAll es := by
  induction es with
  | nil => cases h
  | cons e rest ih =>
    rw [heightAll]
    cases h with
    | head => exact Nat.le_max_left ..
    | tail _ h => exact Nat.le_trans (ih h) (Nat.le_max_right ..)

/-- The tree is a level taller than those below it. -/
theorem height_lt_of_mem_children {c e : Expr} (h : c ∈ e.children) : c.height < e.height := by
  have hall : heightAll e.children < e.height := by
    cases e <;> simp [children, height, heightAll, Nat.max_assoc]
  exact Nat.lt_of_le_of_lt (height_le_heightAll h) hall

/-! ## Recursions on a stack -/

section

variable {β : Type}

/-- What a recursion does at a node, by what it calls for others. -/
abbrev Visit (β : Type) := (Expr → Option β) → Expr → Option β

/-- A recursion with room for so many calls inside each other. -/
def onStack (visit : Visit β) : Nat → Expr → Option β
  | 0, _ => none
  | stack + 1, e => visit (onStack visit stack) e

/-- With the values of a function for the trees below, a node is given its value. -/
def Visit.Computes (visit : Visit β) (f : Expr → β) : Prop :=
  ∀ (call : Expr → Option β) (e : Expr), (∀ c ∈ e.children, call c = some (f c)) →
    visit call e = some (f e)

/-- A recursion makes at most as many calls inside each other as the tree is tall. -/
theorem onStack_of_height_le {visit : Visit β} {f : Expr → β} (h : visit.Computes f) {stack : Nat}
    {e : Expr} (hle : e.height ≤ stack) : onStack visit stack e = some (f e) := by
  induction stack generalizing e with
  | zero => exact absurd hle (by cases e <;> simp [height])
  | succ stack ih =>
    refine h _ e fun c hc => ih ?_
    exact Nat.le_of_lt_succ (Nat.lt_of_lt_of_le (height_lt_of_mem_children hc) hle)

/-- The calls for several trees. -/
theorem mapM_of_forall {call : Expr → Option β} {f : Expr → β} {es : List Expr}
    (h : ∀ c ∈ es, call c = some (f c)) : es.mapM call = some (es.map f) := by
  induction es with
  | nil => rfl
  | cons e rest ih =>
    rw [List.mapM_cons, h e List.mem_cons_self, ih fun c hc => h c (List.mem_cons_of_mem _ hc)]
    rfl

end

/-! ## Evaluation, calls and release -/

section

variable (library : Option Binding) (datum : Json)

/-- The value of a node. The right side of `and` and `or` and the branches of a conditional are
looked at only where they are wanted. -/
def evaluating : Visit Json := fun call e => do
  match e with
  | .literal v => return v
  | .array items => return .array (← items.mapM call)
  | .name id => return if id = "datum" then datum else (datum.get? id).getD .null
  | .member object property => return (← call object).memberAt (← call property)
  | .unary op operand => return applyUnary op (← call operand)
  | .binary .and left right =>
    let l ← call left
    if l.truthy then call right else return l
  | .binary .or left right =>
    let l ← call left
    if l.truthy then return l else call right
  | .binary op left right => return apply op (← call left) (← call right)
  | .conditional test yes no => if (← call test).truthy then call yes else call no
  | .call function arguments _ =>
    let values ← arguments.mapM call
    return (library.bind fun b => b.call function values).getD .null

theorem evalAll_eq_map (es : List Expr) :
    evalAll library datum es = es.map (eval library datum) := by
  induction es with
  | nil => rfl
  | cons e rest ih => rw [evalAll, ih, List.map_cons]

theorem evaluating_computes : (evaluating library datum).Computes (eval library datum) := by
  intro call e h
  unfold evaluating
  cases e with
  | literal v => rfl
  | array items =>
    have hitems : items.mapM call = some (items.map (eval library datum)) := mapM_of_forall h
    simp only [hitems, eval, evalAll_eq_map]
    rfl
  | name id => rfl
  | member object property =>
    simp only [children, List.forall_mem_cons] at h
    simp only [h, eval]
    rfl
  | unary op operand =>
    simp only [children, List.forall_mem_cons] at h
    simp only [h, eval]
    rfl
  | binary op left right =>
    simp only [children, List.forall_mem_cons] at h
    cases op
    -- Where the right side is not wanted, its value makes no difference.
    case and =>
      simp only [h, eval, apply, Option.bind_eq_bind, Option.bind_some]
      split <;> rfl
    case or =>
      simp only [h, eval, apply, Option.bind_eq_bind, Option.bind_some]
      split <;> rfl
    all_goals
      simp only [h, eval]
      rfl
  | conditional test yes no =>
    simp only [children, List.forall_mem_cons] at h
    simp only [h, eval, Option.bind_eq_bind, Option.bind_some]
    split <;> rfl
  | call function arguments offset =>
    have hvalues : arguments.mapM call = some (arguments.map (eval library datum)) :=
      mapM_of_forall h
    simp only [hvalues, eval, evalAll_eq_map]
    rfl

end

/-- The calls of a node and those below it. -/
def collecting : Visit (List (String × Nat)) := fun call e => do
  let below ← e.children.mapM call
  match e with
  | .call function _ offset => return (function, offset) :: below.flatten
  | _ => return below.flatten

theorem callsAll_eq_flatten (es : List Expr) : callsAll es = (es.map calls).flatten := by
  induction es with
  | nil => rfl
  | cons e rest ih => rw [callsAll, ih, List.map_cons, List.flatten_cons]

theorem collecting_computes : collecting.Computes calls := by
  intro call e h
  unfold collecting
  rw [mapM_of_forall h]
  cases e <;> simp [children, calls, callsAll_eq_flatten]

/-- Releases what is below a node. -/
def releasing : Visit Unit := fun call e => e.children.forM call

theorem releasing_computes : releasing.Computes fun _ => () := by
  intro call e h
  unfold releasing
  generalize e.children = es at h
  induction es with
  | nil => rfl
  | cons c rest ih =>
    have hrest := ih fun c hc => h c (List.mem_cons_of_mem _ hc)
    simp only [List.forM_eq_forM, List.forM_cons, h c List.mem_cons_self] at hrest ⊢
    exact hrest

end Expr

end Dataflow
