import Dataflow.Proofs.ScopeBindings
import Mathlib

/-!
# Which scope a shared expression sees

The library is bound to every scope anew, and an expression captures the binding of the scope it is
compiled in. A shared expression is found by its text from all scopes below, so it may have
captured the binding of a scope above: the holder of the function (`ScopeTree.holder`). Its value
is that of the expression in the scope of the holder (`expression_sees_holder`). It differs from
the value in the scope where it was resolved only if that is another scope and some function that
the expression calls tells the two apart.

* `Expr.eval_congr`: evaluation depends on the scope through the functions that are called only
-/

namespace Dataflow

/-! ## Expressions and the scope they are evaluated for -/

namespace Expr

/-- Two contexts are the same to some calls of a library. -/
def Alike (library : Library) (here there : ScopeContext) (calls : List (String × Nat)) : Prop :=
  ∀ c ∈ calls, ∀ arguments, library.call c.1 arguments here = library.call c.1 arguments there

theorem Alike.append {library : Library} {here there : ScopeContext} {xs ys : List (String × Nat)} :
    Alike library here there (xs ++ ys) ↔
      Alike library here there xs ∧ Alike library here there ys := by
  simp only [Alike, List.mem_append, or_imp, forall_and]

mutual

/-- Evaluation depends on the context through the functions that are called only. -/
theorem eval_congr {library : Library} {here there : ScopeContext} (datum : Json) :
    (e : Expr) → Alike library here there e.calls →
      e.eval (some ⟨library, here⟩) datum = e.eval (some ⟨library, there⟩) datum
  | .literal _, _ => rfl
  | .array items, h => by rw [eval, eval, evalAll_congr datum items h]
  | .name _, _ => rfl
  | .member object property, h => by
    obtain ⟨ho, hp⟩ := Alike.append.mp h
    rw [eval, eval, eval_congr datum object ho, eval_congr datum property hp]
  | .unary _ operand, h => by rw [eval, eval, eval_congr datum operand h]
  | .binary _ left right, h => by
    obtain ⟨hl, hr⟩ := Alike.append.mp h
    rw [eval, eval, eval_congr datum left hl, eval_congr datum right hr]
  | .conditional test yes no, h => by
    obtain ⟨hty, hn⟩ := Alike.append.mp h
    obtain ⟨ht, hy⟩ := Alike.append.mp hty
    rw [eval, eval, eval_congr datum test ht, eval_congr datum yes hy, eval_congr datum no hn]
  | .call function arguments offset, h => by
    have hargs : Alike library here there (callsAll arguments) :=
      fun c hc => h c (List.mem_cons_of_mem _ hc)
    have hcall := h (function, offset) List.mem_cons_self
    rw [eval, eval, evalAll_congr datum arguments hargs]
    exact congrArg (·.getD .null) (hcall _)

theorem evalAll_congr {library : Library} {here there : ScopeContext} (datum : Json) :
    (es : List Expr) → Alike library here there (callsAll es) →
      evalAll (some ⟨library, here⟩) datum es = evalAll (some ⟨library, there⟩) datum es
  | [], _ => rfl
  | e :: rest, h => by
    obtain ⟨he, hrest⟩ := Alike.append.mp h
    rw [evalAll, evalAll, eval_congr datum e he, evalAll_congr datum rest hrest]

end

/-- Whether a text compiles does not depend on the scope that the library is bound to. -/
theorem compile_congr (text : String) (library : Library) (here there : ScopeContext) :
    compile text (some ⟨library, here⟩) = compile text (some ⟨library, there⟩) := rfl

end Expr

variable {library : Option Library} {s s' : Session}

/-! ## Holders -/

namespace ScopeTree

variable {t : ScopeTree} {id : ScopeId} {key : MemoKey}

/-- The scope that shares the function that is seen for a key; the scope itself where none is seen
yet, since it is the one that will share it. -/
def holder (t : ScopeTree) (id : ScopeId) (key : MemoKey) : ScopeId :=
  ((t.chain id).find? fun a =>
    ((t.scope? a).bind fun sc => sc.functions.get? key).isSome).getD id

theorem holder_of_none (h : t.function? id key = none) : t.holder id key = id := by
  have hnone : (t.chain id).find? (fun a =>
      ((t.scope? a).bind fun sc => sc.functions.get? key).isSome) = none := by
    rw [List.find?_eq_none]
    intro a ha
    simpa using List.findSome?_eq_none_iff.mp h a ha
  rw [holder, hnone]
  rfl

/-- The holder shares what is seen. -/
theorem holder_of_some {f : Function} (h : t.function? id key = some f) :
    t.holder id key ∈ t.chain id ∧
      ∃ sc, t.scope? (t.holder id key) = some sc ∧ sc.functions.get? key = some f := by
  -- The function is seen in the first scope along the chain that shares one for the key.
  obtain ⟨before, a, after, hchain, ha, hbefore⟩ := List.findSome?_eq_some_iff.mp h
  have hfind : (t.chain id).find? (fun a =>
      ((t.scope? a).bind fun sc => sc.functions.get? key).isSome) = some a := by
    rw [hchain, List.find?_append, List.find?_eq_none.mpr, List.find?_cons_of_pos]
    · rfl
    · rw [ha]
      rfl
    · intro b hb
      simpa using hbefore b hb
  have hholder : t.holder id key = a := by
    rw [holder, hfind]
    rfl
  rw [hholder]
  exact ⟨List.mem_of_find?_eq_some hfind, Option.bind_eq_some_iff.mp ha⟩

theorem mem_chain_self {sc : Scope} (h : t.scope? id = some sc) : id ∈ t.chain id := by
  rw [chain, h]
  exact List.mem_cons_self

end ScopeTree

/-- The scopes along a chain exist. -/
theorem ScopeTree.exists_of_mem_chain {t : ScopeTree} {id a : ScopeId} (h : a ∈ t.chain id) :
    ∃ sc, t.scope? a = some sc := by
  fun_induction ScopeTree.chain t id with
  | case1 id hnone => exact nomatch h
  | case2 id sc hsc ih =>
    obtain rfl | h := List.mem_cons.mp h
    · exact ⟨sc, hsc⟩
    · split at h
      · exact nomatch h
      · rename_i p hparent
        split at h
        · rename_i hlt
          exact ih p hlt h
        · exact nomatch h

theorem Session.Bound.library? (hs : s.Bound library) {id : ScopeId} {sc : Scope}
    (h : s.scopes.scope? id = some sc) :
    s.scopes.library? id = library.map fun l => ⟨l, id, s.scopes.itemPath id⟩ := by
  rw [ScopeTree.library?, ScopeTree.itemPath, h]
  exact hs.bound id sc h

/-! ## Resolving an expression -/

/-- An expression resolves to an accessor with the binding of its holder. -/
theorem Compile.ends_resolve_expression (hs : s.Bound library) {scope : ScopeId}
    (hscope : scope < s.scopes.size) {v : Json} {r : ExpressionRef}
    (hdecode : Reference.decode v = .ok (some (.expression r))) :
    Ends (resolve scope v) s (fun p _ =>
      s.scopes.holder scope (.expression r.text) ∈ s.scopes.chain scope ∧
        ∃ f e, p = .accessor f ∧
          Expr.compile r.text (s.scopes.library? (s.scopes.holder scope (.expression r.text))) =
            .ok e ∧
          f.body =
            .expression e (s.scopes.library? (s.scopes.holder scope (.expression r.text))))
      fun _ _ => True := by
  obtain ⟨sc, hsc⟩ : ∃ sc, s.scopes.scope? scope = some sc := ⟨_, List.getElem?_eq_getElem hscope⟩
  have hone : resolve scope v = resolveOne scope v := by
    cases v with
    | array items => exact nomatch hdecode
    | _ => rfl
  rw [hone, resolveOne, ends_bind, ends_ofExcept, hdecode]
  refine ⟨fun found hfound => ?_, fun _ _ => trivial⟩
  obtain rfl := Except.ok.inj hfound
  show Ends (resolveReference scope (.expression r)) s _ _
  unfold resolveReference
  rw [ends_bind, ends_get, ends_bind, ends_shared]
  cases hf : s.scopes.function? scope (.expression r.text) with
  | some f =>
    -- The function is there already, and fits the holder.
    obtain ⟨hmem, holder, hholder, hget⟩ := ScopeTree.holder_of_some hf
    have hfits := hs.fits _ holder _ f hholder hget
    have hlib :
        s.scopes.library? (s.scopes.holder scope (.expression r.text)) = holder.library := by
      rw [ScopeTree.library?, hholder]
      rfl
    refine ⟨hmem, ?_⟩
    rw [hlib]
    cases f with
    | comparator c => exact hfits.elim
    | accessor f =>
      obtain ⟨e, he, hbody⟩ := hfits
      exact ⟨f, e, rfl, he, hbody⟩
  | none =>
    -- The scope compiles the text for itself.
    have hself := ScopeTree.holder_of_none hf
    rw [hself]
    dsimp only
    unfold Accessor.ofExpression
    cases he : Expr.compile r.text (s.scopes.library? scope) with
    | error err => exact trivial
    | ok e =>
      refine ⟨fun _ => ?_, fun _ => trivial⟩
      exact ⟨ScopeTree.mem_chain_self hsc, _, e, rfl, rfl, rfl⟩

/-- In every session with a library, an expression that resolves in a scope has the value of its
tree in the scope of its holder, which is the scope or one above. The text would compile afresh,
to an accessor with the value of the same tree in the scope itself. So the two agree exactly if
the tree has the same values in both scopes. It does if the scope is its own holder, and also if
the functions that the expression calls do not tell the two scopes apart. -/
theorem expression_sees_holder (library : Library) (transforms : Registry) (depthLimit : Nat)
    (ops : List Operation) (scope : ScopeId) (v : Json) (r : ExpressionRef) (p : Parameter)
    (s' : Session) :
    let s := (Session.new (some library) transforms depthLimit).run ops
    let holder := s.scopes.holder scope (.expression r.text)
    let here : ScopeContext := ⟨scope, s.scopes.itemPath scope⟩
    let there : ScopeContext := ⟨holder, s.scopes.itemPath holder⟩
    scope < s.scopes.size → Reference.decode v = .ok (some (.expression r)) →
      Compile.resolve scope v s = .ok p s' →
      holder ∈ s.scopes.chain scope ∧ s.scopes.library? scope = some ⟨library, here⟩ ∧
        ∃ (f g : Accessor) (e : Expr), p = .accessor f ∧
          Expr.compile r.text (s.scopes.library? scope) = .ok e ∧
          Accessor.ofExpression s.nextSerial r.text r.fields r.name (s.scopes.library? scope) =
            .ok g ∧
          (∀ datum, f.call datum = e.eval (some ⟨library, there⟩) datum) ∧
          (∀ datum, g.call datum = e.eval (some ⟨library, here⟩) datum) ∧
          ((∀ datum, f.call datum = g.call datum) ↔
            ∀ datum, e.eval (some ⟨library, there⟩) datum = e.eval (some ⟨library, here⟩) datum) ∧
          (holder = scope ∨ Expr.Alike library there here e.calls →
            ∀ datum, f.call datum = g.call datum) := by
  intro s holder here there hscope hdecode hp
  have hs : s.Bound (some library) := (Session.bound_new _ transforms depthLimit).run ops
  obtain ⟨hmem, f, e, rfl, he, hbody⟩ := (Compile.ends_resolve_expression hs hscope hdecode).ok hp
  obtain ⟨sc, hsc⟩ : ∃ sc, s.scopes.scope? scope = some sc := ⟨_, List.getElem?_eq_getElem hscope⟩
  obtain ⟨above, habove⟩ := ScopeTree.exists_of_mem_chain hmem
  have hhere : s.scopes.library? scope = some ⟨library, here⟩ := hs.library? hsc
  have hthere : s.scopes.library? holder = some ⟨library, there⟩ := hs.library? habove
  rw [hthere] at he hbody
  rw [hhere]
  have hf : ∀ datum, f.call datum = e.eval (some ⟨library, there⟩) datum := by
    intro datum
    rw [Accessor.call, hbody]
  -- The fresh accessor has the same tree, since compiling does not look at the context.
  refine ⟨hmem, rfl, f, ⟨s.nextSerial, r.name, r.fields, .expression e (some ⟨library, here⟩)⟩, e,
    rfl, he, ?_, hf, fun _ => rfl, ?_, ?_⟩
  · rw [Accessor.ofExpression, Expr.compile_congr r.text library here there, he]
  · constructor
    · exact fun h datum => (hf datum).symm.trans (h datum)
    · exact fun h datum => (hf datum).trans (h datum)
  · rintro (hself | halike) datum
    · rw [hf, show there = here by simp only [there, here, hself]]
      rfl
    · rw [hf, Expr.eval_congr datum e halike]
      rfl

/-- The reference to an expression. -/
def expressionReference (text : String) : Json := .object [("$expr", .string text)]

/-- A session in which an expression has been resolved at the root, which has been forked since. -/
def sharedFromRoot (text : String) : Session :=
  (Session.new (some .standard) .empty 64).run
    [.resolve ScopeTree.rootId (expressionReference text), .fork ScopeTree.rootId 0]

/-- What the fork observes of the shared expression on the record null. -/
def seenFromFork (text : String) : Option Json :=
  match (Compile.resolve 1 (expressionReference text)).run (sharedFromRoot text) with
  | .ok (.accessor f) _ => some (f.call .null)
  | _ => none

set_option maxRecDepth 2000 in
/-- The function `abs` cannot tell a fork from the root, so the accessor that the fork shares with
the root is as good as a fresh one. -/
theorem expression_sees_holder_abs :
    ∃ f g s', Compile.resolve 1 (expressionReference "abs(datum)") (sharedFromRoot "abs(datum)") =
        .ok (.accessor f) s' ∧
      (sharedFromRoot "abs(datum)").scopes.holder 1 (.expression "abs(datum)") = 0 ∧
      Accessor.ofExpression (sharedFromRoot "abs(datum)").nextSerial "abs(datum)" [] none
        ((sharedFromRoot "abs(datum)").scopes.library? 1) = .ok g ∧
      ∀ datum, f.call datum = g.call datum := by
  have hscope : 1 < (sharedFromRoot "abs(datum)").scopes.size := by cbv
  have hdecode : Reference.decode (expressionReference "abs(datum)") =
      .ok (some (.expression ⟨"abs(datum)", none, [], none⟩)) := by cbv
  have hholder : (sharedFromRoot "abs(datum)").scopes.holder 1 (.expression "abs(datum)") = 0 := by
    cbv
  have hcompile : Expr.compile "abs(datum)" ((sharedFromRoot "abs(datum)").scopes.library? 1) =
      .ok (.call "abs" [.name "datum"] 0) := by cbv
  have hseen : (seenFromFork "abs(datum)").isSome = true := by
    unfold seenFromFork
    show (match (Compile.resolveOne 1 _).run _ with
      | .ok (.accessor f) _ => some (f.call .null)
      | _ => none).isSome = true
    cbv
  unfold seenFromFork EStateM.run at hseen
  split at hseen
  · rename_i f s' hp
    obtain ⟨-, -, f, g, e, hf, he, hg, -, -, -, hagree⟩ :=
      expression_sees_holder .standard .empty 64 _ 1 _ _ _ s' hscope hdecode hp
    cases hf
    obtain rfl := Except.ok.inj (he.symm.trans hcompile)
    -- The only call is one of `abs`, which does not look at its context.
    refine ⟨f, g, s', hp, hholder, hg, hagree (.inr fun c hc arguments => ?_)⟩
    obtain rfl := List.mem_singleton.mp hc
    rfl
  · cases hseen

set_option maxRecDepth 2000 in
/-- A fork that shares `itemPath()` with the root gets the path of the root, which is not what the
text gives if it is compiled for the fork. -/
theorem expression_not_always_fresh :
    ¬ ∀ (library : Library) (transforms : Registry) (depthLimit : Nat) (ops : List Operation)
        (scope : ScopeId) (text : String) (f g : Accessor) (s' : Session),
      let s := (Session.new (some library) transforms depthLimit).run ops
      scope < s.scopes.size →
        Compile.resolve scope (.object [("$expr", .string text)]) s = .ok (.accessor f) s' →
        Accessor.ofExpression s.nextSerial text [] none (s.scopes.library? scope) = .ok g →
        ∀ datum, f.call datum = g.call datum := by
  intro h
  have hscope : 1 < (sharedFromRoot "itemPath()").scopes.size := by cbv
  have hseen : seenFromFork "itemPath()" = some (.array []) := by
    unfold seenFromFork
    show (match (Compile.resolveOne 1 _).run _ with
      | .ok (.accessor f) _ => some (f.call .null)
      | _ => none) = _
    cbv
  have hcompile : Expr.compile "itemPath()"
      ((sharedFromRoot "itemPath()").scopes.library? 1) = .ok (.call "itemPath" [] 0) := by cbv
  have hlib : (sharedFromRoot "itemPath()").scopes.library? 1 =
      some ⟨.standard, 1, [0]⟩ := by cbv
  unfold seenFromFork EStateM.run at hseen
  split at hseen
  · rename_i f s' hp
    -- A fresh accessor would answer `[0]`, where the shared one answers `[]`.
    have hg : Accessor.ofExpression (sharedFromRoot "itemPath()").nextSerial "itemPath()" [] none
        ((sharedFromRoot "itemPath()").scopes.library? 1) =
          .ok ⟨(sharedFromRoot "itemPath()").nextSerial, none, [],
            .expression (.call "itemPath" [] 0) (some ⟨.standard, 1, [0]⟩)⟩ := by
      rw [Accessor.ofExpression, hcompile, hlib]
    have hcall := h .standard .empty 64 _ 1 "itemPath()" f _ s' hscope hp hg .null
    rw [Option.some.inj hseen] at hcall
    cases hcall
  · cases hseen

end Dataflow
