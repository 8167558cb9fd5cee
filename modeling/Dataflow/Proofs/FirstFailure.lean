import Dataflow.Proofs.OutputNode
import Dataflow.Proofs.SessionRelations

/-!
# The first entry that fails

A specification is one list of parts: its operators, its streams, and then its listeners
(`specification_eq_parts`). They are compiled in turn, and `Compile.InTurn` says from which session
to which a list of parts takes a compilation in which none of them fails.

No part makes an error that names an entry (`isNamed_of_part`), so the name that is attached to an
error on its way out is the only one. The main result is `first_failure`: a compilation that fails
ends as its first failing part has left it, whatever comes after that part.
-/

namespace Dataflow

/-! ## Parts -/

/-- Anything that a specification declares. -/
inductive Part where
  | entry (e : Entry)
  | listener (spec : UpdateSpec)

/-- What a part is called in an error; a listener has no name but that of its target. -/
def Part.id : Part → EntryId
  | entry e => e.id
  | listener spec => spec.target

/-- The parts of a specification, in the order in which they are compiled. -/
def Spec.parts (spec : Spec) : List Part :=
  spec.entries.map .entry ++ spec.updates.map .listener

namespace Compile

variable {scope : ScopeId} {s s' : Session}

/-- Compiles a part by itself. -/
def part (scope : ScopeId) : Part → Compile Unit
  | .entry e => discard (entry scope e)
  | .listener spec => listener scope spec

/-- Compiles parts in turn, so that the error of a part names it. -/
def parts (scope : ScopeId) (xs : List Part) : Compile Unit :=
  forM xs fun p => within p.id (part scope p)

theorem specification_eq_parts (spec : Spec) :
    specification scope spec = parts scope spec.parts := by
  rw [specification_eq, parts, Spec.parts, List.forM_append, List.forM_map, List.forM_map]
  rfl

/-- From the first session to the last, the parts have been compiled one after the other, and none
of them has failed. -/
inductive InTurn (scope : ScopeId) : Session → List Part → Session → Prop where
  | nil (s : Session) : InTurn scope s [] s
  | cons {s t s' : Session} {p : Part} {rest : List Part} (first : part scope p s = .ok () t)
      (others : InTurn scope t rest s') : InTurn scope s (p :: rest) s'

/-! ## Errors of a part -/

/-- An error of a part by itself names no entry: it is raised by what the part is made of. -/
theorem isNamed_of_part {p : Part} {e : CompileError} (h : part scope p s = .error e s') :
    e.isNamed = false := by
  -- Nothing is asked of the sessions here, so they may be related in any way.
  have hR := Session.allowsSharing_true
  have hrelates : Relates (fun _ _ => True) (part scope p) := by
    cases p with
    | entry e =>
      cases e with
      | operator spec =>
        exact relates_discard (relates_operator hR (fun _ _ => trivial) spec fun _ _ _ => trivial)
      | stream spec =>
        exact relates_discard (relates_stream hR (fun _ _ => trivial) fun _ _ => trivial)
    | listener spec => exact relates_listener hR (fun _ _ => trivial) spec
  exact ((hrelates s).error h).1

/-- The only name in an error that leaves a part is that of the part. -/
theorem within_part_eq_error {p : Part} {e : CompileError} :
    within p.id (part scope p) s = .error e s' ↔
      ∃ source, part scope p s = .error source s' ∧ source.isNamed = false ∧
        e = .inOperator p.id source := by
  rw [within_eq_error]
  refine exists_congr fun source => and_congr_right fun hp => ?_
  have hnamed : source.isNamed = false := isNamed_of_part hp
  rw [CompileError.within_of_isNamed_eq_false hnamed, and_iff_right hnamed]

/-! ## Parts in turn -/

/-- Compiling parts in turn fails exactly where a part fails after all parts before it have been
compiled. The error names that part, and the session is the one that it has left. -/
theorem parts_eq_error {xs : List Part} {e : CompileError} :
    parts scope xs s = .error e s' ↔
      ∃ before p after t source, xs = before ++ p :: after ∧ InTurn scope s before t ∧
        part scope p t = .error source s' ∧ source.isNamed = false ∧
        e = .inOperator p.id source := by
  induction xs generalizing s with
  | nil =>
    constructor
    · exact fun h => nomatch h
    · rintro ⟨before, p, after, -, -, h, -⟩
      simp at h
  | cons x rest ih =>
    rw [parts, List.forM_cons, bind_eq_error, within_part_eq_error]
    constructor
    · rintro (⟨source, hx, hnamed, he⟩ | ⟨_, t, hx, hrest⟩)
      · exact ⟨[], x, rest, s, source, rfl, .nil s, hx, hnamed, he⟩
      · obtain ⟨before, p, after, t', source, hlist, hturn, hp, hnamed, he⟩ := ih.mp hrest
        refine ⟨x :: before, p, after, t', source, ?_, ?_, hp, hnamed, he⟩
        · rw [hlist, List.cons_append]
        · exact .cons (within_eq_ok.mp hx) hturn
    · rintro ⟨before, p, after, t, source, hlist, hturn, hp, hnamed, he⟩
      -- The first part is the one that fails only if no part stands before that one.
      cases hturn with
      | nil =>
        obtain ⟨rfl, -⟩ := List.cons.inj hlist
        exact .inl ⟨source, hp, hnamed, he⟩
      | cons hfirst hothers =>
        obtain ⟨rfl, htail⟩ := List.cons.inj hlist
        refine .inr ⟨(), _, within_eq_ok.mpr hfirst, ?_⟩
        exact ih.mpr ⟨_, p, after, t, source, htail, hothers, hp, hnamed, he⟩

end Compile

/-! ## Specifications -/

/-- A compilation that fails names, once, the first of the operators, streams and listeners that
fails after all those before it have been compiled. Those after it leave no trace: any specification
that begins in the same way ends with the same error and the same session. -/
theorem first_failure (s s' : Session) (scope : ScopeId) (spec : Spec) (e : CompileError)
    (h : Compile.specification scope spec s = .error e s') :
    ∃ before p after t source, spec.parts = before ++ p :: after ∧
      Compile.InTurn scope s before t ∧ Compile.part scope p t = .error source s' ∧
      (∀ id inner, source ≠ .inOperator id inner) ∧ e = .inOperator p.id source ∧
      ∀ other : Spec, before ++ [p] <+: other.parts →
        Compile.specification scope other s = .error e s' := by
  rw [Compile.specification_eq_parts, Compile.parts_eq_error] at h
  obtain ⟨before, p, after, t, source, hlist, hturn, hp, hnamed, he⟩ := h
  refine ⟨before, p, after, t, source, hlist, hturn, hp, CompileError.isNamed_eq_false.mp hnamed,
    he, ?_⟩
  rintro other ⟨rest, hother⟩
  rw [Compile.specification_eq_parts, Compile.parts_eq_error]
  refine ⟨before, p, rest, t, source, ?_, hturn, hp, hnamed, he⟩
  rw [← hother, List.append_assoc, List.singleton_append]

/-- An operator below an entry that is not declared, between another operator and later ones. -/
def orphaned (later : List OperatorSpec) : Spec :=
  ⟨.named "a" :: { OperatorSpec.named "b" with parent := some ⟨"p"⟩ } :: later, [], []⟩

/-- The operator below the missing entry is named, and it is as if none came after it. -/
theorem first_failure_orphan :
    let s := Session.new none .empty 64
    let e := CompileError.inOperator ⟨"b"⟩ (.unknownParent ⟨"b"⟩ ⟨"p"⟩)
    ∃ s', Compile.specification ScopeTree.rootId (orphaned [.named "c"]) s = .error e s' ∧
      Compile.specification ScopeTree.rootId (orphaned []) s = .error e s' := by
  intro s e
  obtain ⟨s', hs'⟩ : ∃ s', Compile.specification ScopeTree.rootId (orphaned [.named "c"]) s =
      .error e s' := Compile.exists_of_failure? (by decide +kernel)
  obtain ⟨before, p, after, t, source, hlist, -, -, -, he, halike⟩ :=
    first_failure s s' ScopeTree.rootId (orphaned [.named "c"]) e hs'
  refine ⟨s', hs', halike (orphaned []) ?_⟩
  -- The error names the second operator, so that is where the list is split.
  have hid : p.id = ⟨"b"⟩ := (CompileError.inOperator.inj he).1.symm
  simp only [orphaned, Spec.parts, Spec.entries, List.map_cons, List.map_nil, List.append_nil]
    at hlist
  rcases before with _ | ⟨x, _ | ⟨y, rest⟩⟩
  · obtain ⟨rfl, -⟩ := List.cons.inj hlist
    exact absurd hid (by decide)
  · simp only [List.cons_append, List.nil_append, List.cons.injEq] at hlist
    obtain ⟨rfl, rfl, -⟩ := hlist
    exact List.prefix_rfl
  · simp only [List.cons_append, List.cons.injEq, List.singleton_eq_append_iff] at hlist
    obtain ⟨-, -, ⟨-, rfl, -⟩ | ⟨-, hnil⟩⟩ := hlist
    · exact absurd hid (by decide)
    · cases hnil

end Dataflow
