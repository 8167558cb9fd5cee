import Dataflow.Proofs.IsolatedInstances
import Dataflow.Proofs.NoDanglingHandles
import Dataflow.Proofs.ScopeBindings

/-!
# Copies are independent

A copy of a nested specification comes out the same whether or not another attempt to make one has
gone before it, successful or not. Only the numbers differ that are handed out for it: they come
after those that the other attempt has taken.

The two sessions look the same from the scope below which the copy is made (`Session.beside`), if
what is seen there was there before: nodes that exist, and functions whose numbers have been handed
out. Functions always have. A node may be missing if a handle has been registered that names none
yet; then the first attempt may make the node that the second refers to
(`instances_not_always_independent`).
-/

namespace Dataflow

/-! ## Two sessions that look the same -/

variable {s : Session} {library : Option Library}

/-- A session looks the same with a copy and without it. -/
def Session.beside (s : Session) (other : ScopeId) (c : Copy) (parent : ScopeId)
    (known : parent < s.scopes.size) (bound : s.Bound library) (numbered : s.Numbered)
    (seen : ∀ id h, s.scopes.node? parent id = some h → h < s.graph.size)
    (targets : s.graph.TargetsExist) (targets' : (s.joined other c).graph.TargetsExist) :
    Twins where
  here := s
  there := s.joined other c
  parent := parent
  transforms := rfl
  depthLimit := rfl
  graph_size_le := Nat.le_trans (Nat.le_add_right _ _) (Nat.le_of_eq (Graph.size_grow _ _).symm)
  scopes_size_le := Nat.le_trans (Nat.le_succ _) (Nat.le_of_eq Session.scopes_size_joined.symm)
  known := known
  itemPath := by
    rw [ScopeTree.itemPath, ScopeTree.itemPath, Session.scope?_joined known]
    cases s.scopes.scope? parent with
    | none => rfl
    | some sc =>
      rw [Option.map_some]
      split <;> rfl
  library := by
    rw [ScopeTree.library?, ScopeTree.library?, Session.scope?_joined known]
    cases s.scopes.scope? parent with
    | none => rfl
    | some sc =>
      rw [Option.map_some]
      split <;> rfl
  nodes id := by
    have hsame : (s.joined other c).scopes.node? parent id = s.scopes.node? parent id :=
      Session.lookup_joined_before (fun _ _ => rfl) known
    rw [hsame]
    cases hn : s.scopes.node? parent id with
    | none => rfl
    | some h => exact congrArg some (shift_of_lt (seen id h hn)).symm
  functions key := by
    have hsame : (s.joined other c).scopes.function? parent key = s.scopes.function? parent key :=
      Session.lookup_joined_before (fun _ _ => rfl) known
    rw [hsame]
    cases hf : s.scopes.function? parent key with
    | none => rfl
    | some f => exact congrArg some (bound.rename_function? numbered hf _).symm
  targets_here := targets
  targets_there := targets'

/-! ## The same copy -/

/-- The same copy has been added below a scope to both sessions, up to the numbers that are handed
out. It keeps to itself, so nodes that only the second session has are left alone. -/
def SameCopy (s t : Session) (parent : ScopeId) (s' t' : Session) : Prop :=
  ∃ c : Copy, c.Sound s.graph.size parent ∧ s' = s.joined parent c ∧
    t' = t.joined parent (c.rename (.between s t))

/-- Two attempts to make a copy below a scope have come to the same, in one session and in another:
either nothing has been done in both, with the same error, or the same copy has been made or begun
in both. -/
def SameEnd (s t : Session) (parent : ScopeId) :
    EStateM.Result CompileError Session Handle → EStateM.Result CompileError Session Handle → Prop
  | .ok h s', .ok h' t' =>
    h' = (Renaming.between s t).handle h ∧ SameCopy s t parent s' t'
  | .error e s', .error e' t' =>
    e' = e.rename (.between s t) ∧ (s' = s ∧ t' = t ∨ SameCopy s t parent s' t')
  | _, _ => False

/-- The answers correspond, and so there is one in both cases or in neither. -/
theorem SameEnd.answer?_eq {t : Session} {parent : ScopeId}
    {x y : EStateM.Result CompileError Session Handle} (h : SameEnd s t parent x y) :
    Compile.answer? y = (Compile.answer? x).map (Renaming.between s t).handle := by
  cases x with
  | ok a s' =>
    cases y with
    | ok b t' => exact congrArg some h.1
    | error e t' => exact h.elim
  | error e s' =>
    cases y with
    | ok b t' => exact h.elim
    | error e' t' => rfl

theorem Twins.InstanceAlike.sameEnd {w : Twins} {subflow : Subflow} {index : Nat}
    {x y : EStateM.Result CompileError Session Handle}
    (halike : w.InstanceAlike subflow index x y) : SameEnd w.here w.there w.parent x y := by
  cases halike with
  | refused h =>
    refine ⟨?_, .inl ⟨rfl, rfl⟩⟩
    obtain rfl | rfl := h <;> rfl
  | stopped begun h => exact ⟨rfl, .inr ⟨_, begun.sound, rfl, rfl⟩⟩
  | made begun stands recorded => exact ⟨rfl, _, begun.sound, rfl, rfl⟩

/-- An attempt to make a copy leaves the session as it was, or with a copy. -/
theorem Session.after_instantiate (targets : s.graph.TargetsExist) (subflow : Subflow)
    (index : Nat) :
    (Operation.instantiate subflow index).after s = s ∨
      ∃ c, (Operation.instantiate subflow index).after s = s.joined subflow.scope c := by
  refine Operation.after_of_ends (P := fun t => t = s ∨ ∃ c, t = s.joined subflow.scope c) ?_
  show Compile.Ends (discard (Compile.instantiate subflow index)) s _ _
  rw [Compile.ends_discard]
  by_cases known : subflow.scope < s.scopes.size
  · have hsame : SameEnd s s subflow.scope (Compile.instantiate subflow index s)
        (Compile.instantiate subflow index s) :=
      ((s.twice subflow.scope known targets).instantiate_alike rfl index).sameEnd
    unfold Compile.Ends
    cases hx : Compile.instantiate subflow index s with
    | ok h s' =>
      rw [hx] at hsame
      obtain ⟨-, c, -, hs', -⟩ := hsame
      exact .inr ⟨c, hs'⟩
    | error e s' =>
      rw [hx] at hsame
      obtain ⟨-, ⟨hs', -⟩ | ⟨c, -, hs', -⟩⟩ := hsame
      · exact .inl hs'
      · exact .inr ⟨c, hs'⟩
  · have hnone : s.scopes.scope? subflow.scope = none :=
      List.getElem?_eq_none (Nat.not_lt.mp known)
    rw [Compile.ends_instantiate, hnone]
    split
    · exact .inl rfl
    · split <;> exact .inl rfl

/-- A copy comes out the same after an attempt to make another, if the nodes that are seen from the
scope below which it is made exist before. -/
theorem Session.sameEnd_instantiate (bound : s.Bound library) (numbered : s.Numbered)
    (targets : s.graph.TargetsExist) (first second : Subflow) (i j : Nat)
    (known : second.scope < s.scopes.size)
    (seen : ∀ id h, s.scopes.node? second.scope id = some h → h < s.graph.size) :
    SameEnd s ((Operation.instantiate first i).after s) second.scope
      (Compile.instantiate second j s)
      (Compile.instantiate second j ((Operation.instantiate first i).after s)) := by
  have targets' : ((Operation.instantiate first i).after s).graph.TargetsExist :=
    Session.targetsExist_run targets [.instantiate first i]
  obtain hafter | ⟨c, hafter⟩ := Session.after_instantiate targets first i
  · rw [hafter]
    exact ((s.twice second.scope known targets).instantiate_alike rfl j).sameEnd
  · rw [hafter] at targets' ⊢
    exact ((s.beside first.scope c second.scope known bound numbered seen targets
      targets').instantiate_alike rfl j).sameEnd

/-! ## Runs -/

/-- After every run, a copy of a nested specification comes out the same whether or not another
attempt to make one has gone before: it fails with the same error, or its scope and all that is made
for it are the same. The numbers that are there before are kept, those that are handed out for the
copy are shifted. This is so wherever the nodes that are seen from the scope of the copy exist. -/
theorem instances_independent (library : Option Library) (transforms : Registry)
    (depthLimit : Nat) (ops : List Operation) (first second : Subflow) (i j : Nat) :
    let s := (Session.new library transforms depthLimit).run ops
    let t := (Operation.instantiate first i).after s
    let r := Renaming.between s t
    second.scope < s.scopes.size →
    (∀ id h, s.scopes.node? second.scope id = some h → h < s.graph.size) →
      SameEnd s t second.scope (Compile.instantiate second j s) (Compile.instantiate second j t) ∧
        (∀ h < s.graph.size, r.handle h = h) ∧ (∀ id < s.scopes.size, r.scope id = id) ∧
        (∀ k, r.handle (s.graph.size + k) = t.graph.size + k) ∧
        (∀ k, r.scope (s.scopes.size + k) = t.scopes.size + k) ∧
        (∀ h h', h < h' → r.handle h < r.handle h') ∧
        (∀ id id', id < id' → r.scope id < r.scope id') := by
  intro s t r known seen
  have bound : s.Bound library := (Session.bound_new library transforms depthLimit).run ops
  have numbered : s.Numbered := (Session.numbered_new library transforms depthLimit).run ops
  have targets : s.graph.TargetsExist := Session.targetsExist_run Graph.targetsExist_empty ops
  have hgraph : s.graph.size ≤ t.graph.size := s.size_le_run [.instantiate first i]
  have hscopes : s.scopes.size ≤ t.scopes.size := by
    obtain hafter | ⟨c, hafter⟩ := Session.after_instantiate targets first i
    · exact Nat.le_of_eq (congrArg (fun u : Session => u.scopes.size) hafter.symm)
    · have hjoined : t.scopes.size = s.scopes.size + 1 := by
        rw [show t = s.joined first.scope c from hafter, Session.scopes_size_joined]
      exact Nat.le_trans (Nat.le_succ _) (Nat.le_of_eq hjoined.symm)
  refine ⟨Session.sameEnd_instantiate bound numbered targets first second i j known seen,
    fun h hh => shift_of_lt hh, fun id hid => shift_of_lt hid, fun k => shift_add _ _ k,
    fun k => shift_add _ _ k, fun h h' hlt => shift_lt_shift hgraph hlt,
    fun id id' hlt => shift_lt_shift hscopes hlt⟩

/-- A second copy gets the next node, and is otherwise the copy that would have been made alone. -/
theorem instances_independent_siblings :
    let s := (Session.new none .empty 64).run [.compile ⟨[.named "a"], [], []⟩]
    let t := (Operation.instantiate (referring "a") 0).after s
    ScopeTree.rootId < s.scopes.size ∧
      (∀ id h, s.scopes.node? ScopeTree.rootId id = some h → h < s.graph.size) ∧
      ∃ c : Copy, Compile.instantiate (referring "a") 1 s = .ok 1 (s.joined ScopeTree.rootId c) ∧
        Compile.instantiate (referring "a") 1 t =
          .ok 2 (t.joined ScopeTree.rootId (c.rename (.between s t))) := by
  intro s t
  have known : ScopeTree.rootId < s.scopes.size := by decide +kernel
  -- Only what is compiled is recorded, so every entry has its node.
  have closed : s.Closed := by
    refine (Session.closed_new none .empty 64).run fun op hop => ?_
    obtain rfl := List.mem_singleton.mp hop
    rfl
  have seen : ∀ id h, s.scopes.node? ScopeTree.rootId id = some h → h < s.graph.size :=
    fun id h hn => closed.node?_lt hn
  obtain ⟨s', halone⟩ : ∃ s', Compile.instantiate (referring "a") 1 s = .ok 1 s' :=
    Compile.answer?_eq_some.mp (by decide +kernel)
  obtain ⟨t', hafter⟩ : ∃ t', Compile.instantiate (referring "a") 1 t = .ok 2 t' :=
    Compile.answer?_eq_some.mp (by decide +kernel)
  have hsame := (instances_independent none .empty 64 [.compile ⟨[.named "a"], [], []⟩]
    (referring "a") (referring "a") 0 1 known seen).1
  have hcopy : SameEnd s t ScopeTree.rootId (.ok 1 s') (.ok 2 t') := halone ▸ hafter ▸ hsame
  obtain ⟨-, c, -, hs', ht'⟩ := hcopy
  exact ⟨known, seen, c, hs' ▸ halone, ht' ▸ hafter⟩

/-- Where a handle is registered that names no node yet, the node of the first copy makes the
difference for the second, which refers to it. -/
theorem instances_not_always_independent :
    ¬ ∀ (library : Option Library) (transforms : Registry) (depthLimit : Nat)
        (ops : List Operation) (first second : Subflow) (i j : Nat),
      let s := (Session.new library transforms depthLimit).run ops
      let t := (Operation.instantiate first i).after s
      first.scope < s.scopes.size → second.scope < s.scopes.size →
        SameEnd s t second.scope (Compile.instantiate second j s)
          (Compile.instantiate second j t) := by
  intro h
  let s := (Session.new none .empty 64).run [.register ScopeTree.rootId (.named "p") 0]
  let first : Subflow := ⟨⟨[.named "a"], [], []⟩, ScopeTree.rootId⟩
  have hsame := h none .empty 64 [.register ScopeTree.rootId (.named "p") 0] first
    (referring "p") 0 1 (by decide +kernel) (by decide +kernel)
  have hfails : Compile.answer? (Compile.instantiate (referring "p") 1 s) = none := by
    decide +kernel
  have hworks : Compile.answer? (Compile.instantiate (referring "p") 1
      ((Operation.instantiate first 0).after s)) = some 1 := by decide +kernel
  have hanswer := hsame.answer?_eq
  rw [hworks, hfails] at hanswer
  cases hanswer

end Dataflow
