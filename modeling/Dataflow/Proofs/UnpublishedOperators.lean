import Dataflow.Proofs.FlattenedParameters
import Dataflow.Proofs.RegisteredNodes

/-!
# An operator that fails is not published

Two relations say how much of a session a step leaves. `Session.SamePublished`: every scope has the
public names and the forks that it had. `Session.OnlyShares`: the graph is the same, and the scopes
are too but for functions that have been added.

The steps of an operator come in an order that goes with them. While it is resolved only functions
are shared; its node is made, loaded and linked before it gets public names; and these it gets
without fail (`enter_of_register_error`). The main result is `unpublished_of_error`.
-/

namespace Dataflow

/-! ## What is left -/

/-- The public names of a scope, and the scopes below it. -/
def Scope.published (sc : Scope) :
    Table String Handle × Table String Handle × Table String (Table String Handle) × List ScopeId :=
  (sc.signals, sc.scales, sc.data, sc.forks)

namespace Session

/-- Every scope has the signals, the scales, the data roles and the forks that it had. -/
def SamePublished (s s' : Session) : Prop :=
  s'.scopes.scopes.map Scope.published = s.scopes.scopes.map Scope.published

/-- The graph is the same, and each scope differs at most in functions that have been added. -/
structure OnlyShares (s s' : Session) : Prop where
  graph : s'.graph = s.graph
  transforms : s'.transforms = s.transforms
  depthLimit : s'.depthLimit = s.depthLimit
  size : s'.scopes.size = s.scopes.size
  scopes : ∀ (id : ScopeId) (sc : Scope), s.scopes.scope? id = some sc →
    ∃ functions, s'.scopes.scope? id = some { sc with functions } ∧
      sc.functions.entries <+: functions.entries

variable {s s' s'' : Session}

theorem samePublished_edited (s : Session) (scope : ScopeId) (f : Scope → Scope)
    (hf : ∀ sc, (f sc).published = sc.published) : s.SamePublished (s.edited scope f) := by
  have hid : ∀ sc, (f sc).published = id sc.published := hf
  show (s.scopes.scopes.modify scope f).map Scope.published = _
  rw [List.map_modify hid, List.modify_id]

theorem allowsSharing_samePublished : AllowsSharing SamePublished where
  refl := fun _ => rfl
  trans := fun h h' => h'.trans h
  counted := fun _ => rfl
  shared := fun s scope _ _ _ => samePublished_edited s scope _ fun _ => rfl

theorem OnlyShares.refl (s : Session) : s.OnlyShares s where
  graph := rfl
  transforms := rfl
  depthLimit := rfl
  size := rfl
  scopes := fun _ sc h => ⟨sc.functions, h, List.prefix_rfl⟩

theorem OnlyShares.trans (h : s.OnlyShares s') (h' : s'.OnlyShares s'') : s.OnlyShares s'' where
  graph := h'.graph.trans h.graph
  transforms := h'.transforms.trans h.transforms
  depthLimit := h'.depthLimit.trans h.depthLimit
  size := h'.size.trans h.size
  scopes := by
    intro id sc hsc
    obtain ⟨functions, hsc', hmore⟩ := h.scopes id sc hsc
    obtain ⟨functions', hsc'', hmore'⟩ := h'.scopes id _ hsc'
    exact ⟨functions', hsc'', hmore.trans hmore'⟩

/-- A function is shared under a key that the scope sees nothing for, so it goes to the end. -/
theorem onlyShares_edited {scope : ScopeId} {key : MemoKey} (f : Function)
    (hnone : s.scopes.function? scope key = none) :
    s.OnlyShares (s.edited scope (Scope.share key f)) where
  graph := rfl
  transforms := rfl
  depthLimit := rfl
  size := scopes_size_edited s scope _
  scopes := by
    intro id sc hsc
    rw [scope?_edited, hsc, Option.map_some]
    by_cases hid : id = scope
    · subst hid
      -- Nothing is seen from the scope, so it has nothing under the key itself.
      have hlocal : sc.functions.get? key = none := by
        rw [ScopeTree.function?, ScopeTree.lookup_of_some hsc, Option.or_eq_none_iff] at hnone
        exact hnone.1
      refine ⟨sc.functions.insert key f, by simp [Scope.share], ?_⟩
      rw [Table.entries_insert_of_none hlocal]
      exact List.prefix_append _ _
    · have hne : ¬ scope = id := fun h => hid h.symm
      refine ⟨sc.functions, ?_, List.prefix_rfl⟩
      rw [if_neg hne]

theorem allowsSharing_onlyShares : AllowsSharing OnlyShares where
  refl := OnlyShares.refl
  trans := OnlyShares.trans
  counted := fun s => ⟨rfl, rfl, rfl, rfl, (OnlyShares.refl s).scopes⟩
  shared := fun _ _ _ f hnone => onlyShares_edited f hnone

end Session

/-! ## Where an operator fails -/

namespace Compile

variable {scope : ScopeId} {s s' : Session} {spec : OperatorSpec} {e : CompileError}

/-- The operator fails before it has a node: a parameter or its update cannot be resolved, or the
graph refuses the node. -/
inductive FailsEarly (scope : ScopeId) (spec : OperatorSpec) (s : Session) (e : CompileError)
    (s' : Session) : Prop where
  | unresolved (h : prepare scope spec s = .error e s')
  | refused {r : Behavior × Parameters} {t : Session} (hprepare : prepare scope spec s = .ok r t)
      (h : send (.add r.1 r.2 spec.react) t = .error e s')

/-- An operator fails early, or when its node is registered, which is the next one of the graph. -/
theorem of_operator_error (h : operator scope spec s = .error e s') :
    FailsEarly scope spec s e s' ∨ ∃ r t, prepare scope spec s = .ok r t ∧
      t.graph.refusal? (.add r.1 r.2 spec.react) = none ∧
      register scope spec t.graph.size (t.sent (.add r.1 r.2 spec.react)) = .error e s' := by
  rw [operator_eq, bind_eq_error] at h
  obtain hprepare | ⟨r, t, hprepare, hmake⟩ := h
  · exact .inl (.unresolved hprepare)
  · unfold make at hmake
    obtain hadd | ⟨handle, t', hadd, hrest⟩ := bind_eq_error.mp hmake
    · exact .inl (.refused hprepare hadd)
    · obtain hregister | ⟨_, _, -, hpure⟩ := bind_eq_error.mp hrest
      · -- The graph has answered with the new node.
        have hends : Ends (send (.add r.1 r.2 spec.react)) t
            (fun h' t' => t.graph.refusal? (.add r.1 r.2 spec.react) = none ∧
              h' = t.graph.size ∧ t' = t.sent (.add r.1 r.2 spec.react)) fun _ _ => True :=
          ends_send.mpr ⟨fun hnone => ⟨hnone, rfl, rfl⟩, fun _ _ => trivial⟩
        obtain ⟨hnone, rfl, rfl⟩ := hends.ok hadd
        exact .inr ⟨r, t, hprepare, hnone, hregister⟩
      · exact nomatch hpure

/-- Nothing but functions is new where an operator fails early. -/
theorem FailsEarly.onlyShares (h : FailsEarly scope spec s e s') : s.OnlyShares s' := by
  have hprepare : Relates Session.OnlyShares (prepare scope spec) :=
    relates_prepare Session.allowsSharing_onlyShares spec
  cases h with
  | unresolved h => exact ((hprepare s).error h).2
  | @refused r t hok h =>
    have hshares : s.OnlyShares t := (hprepare s).ok hok
    -- The graph is not changed by a request for a node that it refuses.
    have hends : Ends (send (.add r.1 r.2 spec.react)) t (fun _ _ => True)
        fun _ t' => t' = t.sent (.add r.1 r.2 spec.react) ∧ t'.graph = t.graph :=
      ends_send.mpr ⟨fun _ => trivial, fun e he => ⟨rfl, by
        simp only [Session.sent, Graph.after, he, Graph.refused]⟩⟩
    obtain ⟨rfl, hgraph⟩ := hends.error h
    exact hshares.trans ⟨hgraph, rfl, rfl, rfl, (Session.OnlyShares.refl t).scopes⟩

/-- A node that is entered gets no public name. -/
theorem relates_enter_samePublished (spec : OperatorSpec) (handle : Handle) :
    Relates Session.SamePublished (enter scope spec handle) :=
  relates_enter Session.allowsSharing_samePublished (fun _ _ => rfl) spec handle
    (fun s => s.samePublished_edited scope _ fun _ => rfl)
    fun s => s.samePublished_edited scope _ fun _ => rfl

theorem samePublished_of_register_error {handle : Handle}
    (h : register scope spec handle s = .error e s') : s.SamePublished s' :=
  ((relates_enter_samePublished spec handle s).error (enter_of_register_error h)).2

/-- Registering a node makes no other. -/
theorem size_of_register_error {handle : Handle} (h : register scope spec handle s = .error e s') :
    s'.graph.size = s.graph.size := by
  obtain ⟨calls, loads, hloads, htold, hstart⟩ := (ends_register spec handle).error h
  rw [htold.graph]
  exact Graph.size_foldl_after (fun r hr => isMaking_of_mem hloads r (hstart.subset hr)) s.graph

theorem samePublished_of_operator_error (h : operator scope spec s = .error e s') :
    s.SamePublished s' := by
  have hR := Session.allowsSharing_samePublished
  have hprepare : Relates Session.SamePublished (prepare scope spec) := relates_prepare hR spec
  obtain hearly | ⟨r, t, hok, -, hregister⟩ := of_operator_error h
  · cases hearly with
    | unresolved h => exact ((hprepare s).error h).2
    | refused hok h =>
      exact hR.trans ((hprepare s).ok hok) ((relates_send (fun _ _ => rfl) _ _).error h).2
  · have hsent : t.SamePublished (t.sent (.add r.1 r.2 spec.react)) := rfl
    exact hR.trans ((hprepare s).ok hok)
      (hR.trans hsent (samePublished_of_register_error hregister))

/-- An operator that does not fail early leaves its node behind. -/
theorem size_of_operator_error (h : operator scope spec s = .error e s') :
    FailsEarly scope spec s e s' ∨ s'.graph.size = s.graph.size + 1 := by
  refine (of_operator_error h).imp (fun h => h) ?_
  rintro ⟨r, t, hok, hnone, hregister⟩
  have hshares : s.OnlyShares t := (relates_prepare Session.allowsSharing_onlyShares spec s).ok hok
  rw [size_of_register_error hregister, ← hshares.graph]
  -- The node is the only one that has been made since the operator was resolved.
  show (t.graph.after _).size = t.graph.size + 1
  rw [Graph.after, hnone]
  exact Graph.size_grown _ _ _

end Compile

/-! ## Failures -/

/-- An operator that cannot be compiled, or a node that cannot be registered, leaves all scopes the
signals, the scales, the data roles and the forks that they had. If the operator has failed before
it had a node, the graph and the scopes are the same but for functions that have been added;
otherwise its node is left behind. -/
theorem unpublished_of_error (s : Session) (scope : ScopeId) (spec : OperatorSpec) :
    (∀ handle e s', Compile.register scope spec handle s = .error e s' → s.SamePublished s') ∧
      ∀ e s', Compile.operator scope spec s = .error e s' →
        s.SamePublished s' ∧
          (Compile.FailsEarly scope spec s e s' → s.OnlyShares s') ∧
          (¬ Compile.FailsEarly scope spec s e s' → s'.graph.size = s.graph.size + 1) := by
  refine ⟨fun handle e s' h => Compile.samePublished_of_register_error h, fun e s' h => ?_⟩
  have hsize := Compile.size_of_operator_error h
  exact ⟨Compile.samePublished_of_operator_error h, fun hearly => hearly.onlyShares,
    fun hlate => hsize.resolve_left hlate⟩

/-- An operator that would be known as a signal if its parent were declared. -/
def orphanSignal : OperatorSpec :=
  { OperatorSpec.named "b" with parent := some ⟨"p"⟩, signal := some "x" }

/-- An operator with a parameter that is not declared. -/
def orphanParameter : OperatorSpec :=
  { OperatorSpec.named "b" with
    params := some (.ofList [("y", operatorReference "p")]), signal := some "x" }

/-- Neither the missing parent nor the missing parameter lets the signal be seen. -/
theorem unpublished_of_error_orphan :
    let s := (Session.new none .empty 64).run [.compile ⟨[.named "a"], [], []⟩]
    (∃ e s', Compile.register ScopeTree.rootId orphanSignal 0 s = .error e s' ∧
      s.SamePublished s') ∧
    (∃ e s', Compile.operator ScopeTree.rootId orphanSignal s = .error e s' ∧
      s.SamePublished s') ∧
    ∃ e s', Compile.operator ScopeTree.rootId orphanParameter s = .error e s' ∧
      s.OnlyShares s' := by
  intro s
  have hparent := unpublished_of_error s ScopeTree.rootId orphanSignal
  have hparam := unpublished_of_error s ScopeTree.rootId orphanParameter
  obtain ⟨s₁, h₁⟩ : ∃ s₁, Compile.register ScopeTree.rootId orphanSignal 0 s =
      .error (.unknownParent ⟨"b"⟩ ⟨"p"⟩) s₁ := Compile.exists_of_failure? (by decide +kernel)
  obtain ⟨s₂, h₂⟩ : ∃ s₂, Compile.operator ScopeTree.rootId orphanSignal s =
      .error (.unknownParent ⟨"b"⟩ ⟨"p"⟩) s₂ := Compile.exists_of_failure? (by decide +kernel)
  obtain ⟨s₃, h₃⟩ : ∃ s₃, Compile.prepare ScopeTree.rootId orphanParameter s =
      .error (.unresolvedReference ⟨"p"⟩) s₃ := by
    refine Compile.exists_of_failure? ?_
    simp only [s]
    cbv
  have hearly := Compile.FailsEarly.unresolved h₃
  have hoperator : Compile.operator ScopeTree.rootId orphanParameter s =
      .error (.unresolvedReference ⟨"p"⟩) s₃ := by
    rw [Compile.operator_eq]
    exact Compile.bind_eq_error.mpr (.inl h₃)
  exact ⟨⟨_, s₁, h₁, hparent.1 _ _ _ h₁⟩, ⟨_, s₂, h₂, (hparent.2 _ _ h₂).1⟩,
    ⟨_, s₃, hoperator, (hparam.2 _ _ hoperator).2.1 hearly⟩⟩

end Dataflow
