import Dataflow.Proofs.ReferenceShapes
import Dataflow.Proofs.SettledParameters
import Dataflow.Proofs.UnpublishedOperators

/-!
# Where a plain operator starts

The value of a plain operator is where it starts, unless it is an object with a member that stands
for something else: an array, or an object with a marker (`Json.isPlain`). This is found out from
the resolved parameters, in which the members may be overwritten by what others bring along.

It is found out all the same. Which parameters are literals depends on the list of values only
(`yields_resolveInto_literal`), and nothing is brought along after the last member that stands for
something else, so its parameter is the one that is found (`all_literal_iff`). The main result is
`plain_starting_value`.
-/

namespace Dataflow

/-- Whether a value stands for itself: it is no array and has no marker. -/
def Json.isPlain : Json → Bool
  | .array _ => false
  | v => v.marker?.isNone

/-- A value that stands for itself brings nothing along. -/
theorem Json.expressionParams?_of_isPlain {v : Json} (h : v.isPlain = true) :
    expressionParams? v = none := by
  cases v with
  | object members =>
    have hexpr : (Json.object members).get? "$expr" = none :=
      Json.marker?_eq_none.mp (Option.isNone_iff_eq_none.mp h) .expr
    simp [expressionParams?, hexpr]
  | _ => rfl

/-! ## Which parameters are literals -/

/-- What a parameter is to be, a literal or not, by its name. -/
def literalEntry (e : String × Json) : String × Bool := (e.1, e.2.isPlain)

namespace Compile

variable {scope : ScopeId}

/-- A reference never resolves to a literal. -/
theorem yields_resolveReference_literal (r : Reference) :
    Yields (resolveReference scope r) fun p => p.isLiteral = false := by
  have hfunction : ∀ f : Function, (Parameter.ofFunction f).isLiteral = false := by
    intro f
    cases f <;> rfl
  cases r with
  | operator id => exact yields_after _ fun _ => yields_pure rfl
  | expression e => exact yields_after _ fun _ => yields_after _ fun f => yields_pure (hfunction f)
  | field path name => exact yields_after _ fun f => yields_pure (hfunction f)
  | compare fields directions => exact yields_after _ fun f => yields_pure (hfunction f)
  | subflow spec => exact yields_pure rfl

theorem yields_resolveOne_literal (v : Json) :
    Yields (resolveOne scope v) fun p => p.isLiteral = v.marker?.isNone := by
  cases hm : v.marker? with
  | none =>
    have hone : resolveOne scope v = pure (.literal v) := by
      unfold resolveOne
      rw [Reference.decode_of_no_marker hm]
      rfl
    rw [hone]
    exact yields_pure rfl
  | some m =>
    obtain ⟨x, hx⟩ := Json.exists_get?_of_marker? hm
    unfold resolveOne
    rw [Reference.decode_of_marker hm hx]
    cases Reference.ofMarker v x m with
    | error e => exact yields_throw e
    | ok r => exact yields_resolveReference_literal r

/-- Exactly the values that stand for themselves resolve to literals. -/
theorem yields_resolve_literal (v : Json) :
    Yields (resolve scope v) fun p => p.isLiteral = v.isPlain := by
  cases v with
  | array items => exact yields_after _ fun ps => yields_pure rfl
  | _ => exact yields_resolveOne_literal _

/-- Which parameters are literals is decided by the values in the order in which they are
resolved. -/
theorem yields_resolveInto_literal (params : Parameters) (members : List (String × Json)) :
    Yields (resolveInto scope params members) fun params' =>
      params'.map Parameter.isLiteral =
        (params.map Parameter.isLiteral).insertAll ((flatten members).map literalEntry) := by
  induction params, members using resolveInto.induct scope with
  | case1 params =>
    rw [resolveInto, flatten_nil]
    exact yields_pure rfl
  | case2 params name v rest ihNested ihRest =>
    have hbrought : Yields (resolveBrought scope params v) fun params' =>
        params'.map Parameter.isLiteral = (params.map Parameter.isLiteral).insertAll
          ((flatten ((expressionParams? v).getD [])).map literalEntry) := by
      unfold resolveBrought
      split
      · rename_i nested hn
        rw [hn]
        exact ihNested nested hn
      · rename_i hn
        rw [hn, Option.getD_none, flatten_nil]
        exact yields_pure rfl
    rw [resolveInto_cons, flatten_cons, List.map_append, List.map_cons, Table.insertAll_append]
    refine yields_bind hbrought fun params' h' => ?_
    refine yields_bind (yields_resolve_literal v) fun p hp s => ?_
    refine (ihRest params' p s).mono (fun params'' _ h => ?_) fun _ _ h => h
    rw [h, Table.map_insert, h', hp]
    rfl

end Compile

/-! ## The last member that is no literal -/

/-- Of the values that do not pass a test, one is the last. -/
theorem exists_last_of_not_all {α : Type} {p : α → Bool} {xs : List α} (h : xs.all p = false) :
    ∃ before x after, xs = before ++ x :: after ∧ p x = false ∧ after.all p = true := by
  induction xs with
  | nil => exact nomatch h
  | cons x rest ih =>
    cases hrest : rest.all p with
    | false =>
      obtain ⟨before, y, after, rfl, hy, hafter⟩ := ih hrest
      exact ⟨x :: before, y, after, rfl, hy, hafter⟩
    | true =>
      rw [List.all_cons, hrest, Bool.and_true] at h
      exact ⟨[], x, rest, rfl, h, hrest⟩

/-- Values that stand for themselves are the whole list. -/
theorem flatten_of_all_isPlain {members : List (String × Json)}
    (h : members.all (fun m => m.2.isPlain) = true) : flatten members = members := by
  induction members with
  | nil => exact flatten_nil
  | cons m rest ih =>
    obtain ⟨name, v⟩ := m
    rw [List.all_cons, Bool.and_eq_true] at h
    rw [flatten_cons, Json.expressionParams?_of_isPlain h.1, Option.getD_none, flatten_nil,
      List.nil_append, ih h.2]

/-- All members of an object are found as literals exactly if all stand for themselves. What is
brought along may overwrite members, but not the last one that brings something. -/
theorem all_literal_iff (members : Table String Json) :
    (∀ m ∈ members.entries,
        (Table.ofList ((flatten members.entries).map literalEntry)).get? m.1 = some true) ↔
      ∀ m ∈ members.entries, m.2.isPlain = true := by
  -- A member that nothing follows under its own name is found as what it is.
  have hfound : ∀ before m after, members.entries = before ++ m :: after →
      after.all (fun m => m.2.isPlain) = true →
      (Table.ofList ((flatten members.entries).map literalEntry)).get? m.1 =
        some m.2.isPlain := by
    rintro before ⟨name, v⟩ after hsplit hafter
    have hdistinct := members.distinct
    rw [hsplit, List.map_append, List.map_cons, List.nodup_append, List.nodup_cons] at hdistinct
    rw [hsplit, flatten_append, flatten_cons, flatten_of_all_isPlain hafter, ← List.append_assoc,
      List.map_append, List.map_cons]
    refine Table.get?_ofList_last ?_ _ _
    rw [List.map_map]
    exact hdistinct.2.1.1
  constructor
  · intro h
    by_contra hnot
    have hall : members.entries.all (fun m => m.2.isPlain) = false := by
      rw [Bool.eq_false_iff]
      exact fun hall => hnot (List.all_eq_true.mp hall)
    obtain ⟨before, m, after, hsplit, hm, hafter⟩ := exists_last_of_not_all hall
    have hmem : m ∈ members.entries := hsplit ▸ List.mem_append_right _ List.mem_cons_self
    have hlast := (hfound before m after hsplit hafter).symm.trans (h m hmem)
    rw [hm] at hlast
    cases hlast
  · intro h m hm
    obtain ⟨before, after, hsplit⟩ := List.append_of_mem hm
    rw [hfound before m after hsplit, h m hm]
    rw [List.all_eq_true]
    exact fun e he => h e (hsplit ▸ List.mem_append_right _ (List.mem_cons_of_mem _ he))

/-! ## The starting value -/

/-- Where a plain operator with an object for its value starts: there, if all members stand for
themselves. -/
def startingValue (members : Table String Json) : Option Json :=
  if members.entries.all fun m => m.2.isPlain then some (.object members.entries) else none

namespace Compile

variable {scope : ScopeId} {spec : OperatorSpec} {members : Table String Json}

theorem yields_resolveValue_initial (hkind : spec.isCollect = false)
    (hvalue : spec.value = some (.object members.entries)) :
    Yields (resolveValue scope spec) fun r => r.2 = startingValue members := by
  unfold resolveValue
  rw [hkind, hvalue, if_neg Bool.false_ne_true]
  refine yields_bind (yields_resolveInto_literal .empty members.entries) fun params h => ?_
  refine yields_pure ?_
  -- The test on the parameters comes to the test on the values.
  have hget : ∀ key, (params.get? key).any Parameter.isLiteral = true ↔
      (Table.ofList ((flatten members.entries).map literalEntry)).get? key = some true := by
    intro key
    have hmap : (params.map Parameter.isLiteral).get? key =
        (Table.ofList ((flatten members.entries).map literalEntry)).get? key :=
      congrArg (fun t : Table String Bool => t.get? key) h
    rw [← hmap, Table.get?_map]
    cases params.get? key <;> simp
  have htest : (members.entries.all fun m => (params.get? m.1).any Parameter.isLiteral) =
      members.entries.all fun m => m.2.isPlain := by
    rw [Bool.eq_iff_iff, List.all_eq_true, List.all_eq_true]
    simp only [hget]
    exact all_literal_iff members
  show (if _ then _ else _) = _
  rw [htest, startingValue]

/-- Until its node is asked for, a plain operator keeps the starting value that it has got from its
value. -/
theorem ends_prepare_initial {s : Session} (hkind : spec.isCollect = false)
    (hplain : transform? spec s.transforms = none)
    (hvalue : spec.value = some (.object members.entries)) :
    Ends (prepare scope spec) s
      (fun r s' => s.Untouched s' ∧ ∃ update, r.1 = .plain (startingValue members) update)
      fun _ s' => s.Untouched s' := by
  have hshares := Session.allowsSharing_onlyShares
  have hquiet : Relates Session.Untouched (prepare scope spec) :=
    relates_prepare Session.allowsSharing_untouched spec
  have hinitial : Ends (prepare scope spec) s
      (fun r _ => ∃ update, r.1 = .plain (startingValue members) update) fun _ _ => True := by
    unfold prepare
    rw [ends_bind]
    refine ((yields_resolveValue_initial hkind hvalue s).and
      (relates_resolveValue hshares spec s)).mono ?_ fun _ _ _ => trivial
    rintro ⟨params, initial⟩ s₁ ⟨rfl, h₁⟩
    rw [ends_bind]
    refine (relates_resolveInto hshares params _ s₁).mono ?_ fun _ _ _ => trivial
    intro params s₂ h₂
    -- The known transforms are still the same, so the operator is still plain.
    have hstill : transform? spec s₂.transforms = none := (h₁.trans h₂).transforms ▸ hplain
    unfold behavior
    rw [ends_bind, ends_get, hstill]
    cases spec.update with
    | none => exact ⟨none, rfl⟩
    | some v => exact yields_after _ (fun r => yields_pure ⟨some r.1, rfl⟩) s₂
  exact ((hquiet s).and hinitial).mono (fun _ _ h => h) fun _ _ h => h.1.2

/-- The first request for an operator is the one for its node, and it is the only one for a
node. -/
theorem ends_make (s : Session) (b : Behavior) (params : Parameters) :
    Ends (make scope spec b params) s
      (fun _ s' => ∃ rest, s.Told (.add b params spec.react :: rest) s' ∧
        ∀ r ∈ rest, r.isMaking = false)
      fun _ s' => ∃ rest, s.Told (.add b params spec.react :: rest) s' ∧
        ∀ r ∈ rest, r.isMaking = false := by
  have hsent := s.told_sent (.add b params spec.react)
  unfold make
  rw [ends_bind, ends_send]
  refine ⟨fun _ => ?_, fun _ _ => ⟨[], hsent, by simp⟩⟩
  rw [ends_bind]
  refine (ends_register spec _).mono ?_ ?_
  · rintro ⟨⟩ s₁ ⟨-, -, loads, hloads, htold⟩
    exact ⟨_, hsent.trans htold, isMaking_of_mem hloads⟩
  · rintro e s₁ ⟨calls, loads, hloads, htold, hstart⟩
    exact ⟨_, hsent.trans htold, fun r hr => isMaking_of_mem hloads r (hstart.subset hr)⟩

end Compile

/-- The first request for a plain operator whose value is an object, and the only one for a node,
has the object itself as the starting value if no member of it is an array or has a marker, and else
none. This does not depend on what the members bring along, on other parameters or on the update. An
operator that succeeds has made the request; one that fails without it has made none at all. -/
theorem plain_starting_value (s : Session) (scope : ScopeId) (spec : OperatorSpec)
    (members : Table String Json) (hkind : spec.kind ≠ collectKind)
    (hplain : spec.kind = plainKind ∨ s.transforms.contains spec.kind = false)
    (hvalue : spec.value = some (.object members.entries)) :
    let asked := fun s' => ∃ update params rest,
      s.Told (.add (.plain (startingValue members) update) params spec.react :: rest) s' ∧
        ∀ r ∈ rest, r.isMaking = false
    Compile.Ends (Compile.operator scope spec) s (fun _ s' => asked s')
      fun _ s' => asked s' ∨ s.Told [] s' := by
  intro asked
  have hcollect : spec.isCollect = false := beq_false_of_ne hkind
  have htransform : Compile.transform? spec s.transforms = none := by
    unfold Compile.transform?
    obtain hkind | hunknown := hplain
    · rw [if_pos hkind]
    · have hnone : s.transforms.get? spec.kind = none := by simpa [Table.contains] using hunknown
      rw [hnone, ite_self]
  rw [Compile.operator_eq, Compile.ends_bind]
  refine (Compile.ends_prepare_initial hcollect htransform hvalue).mono ?_ ?_
  · rintro ⟨_, params⟩ mid ⟨hquiet, update, rfl⟩
    -- Nothing has been asked for before, so the request for the node comes first.
    have hasked : ∀ s', (∃ rest,
        mid.Told (.add (.plain (startingValue members) update) params spec.react :: rest) s' ∧
          ∀ r ∈ rest, r.isMaking = false) → asked s' := by
      rintro s' ⟨rest, htold, hrest⟩
      exact ⟨update, params, rest, hquiet.then_told htold, hrest⟩
    exact (Compile.ends_make mid _ params).mono (fun _ s' h => hasked s' h)
      fun _ s' h => .inl (hasked s' h)
  · exact fun e s' hquiet => .inr hquiet.told

/-- A record, with a parameter that takes the place of one of its members. -/
def coveredRecord : OperatorSpec :=
  { OperatorSpec.named "extent" with
    value := some (.object (Table.ofList [("min", .bool false), ("max", .bool true)]).entries)
    params := some (.ofList [("min", operatorReference "a")]) }

/-- An expression that brings along literals under its own name and under that of a literal. -/
def carriedLiterals : OperatorSpec :=
  { OperatorSpec.named "linked" with
    value := some (.object (Table.ofList [
      ("f", .object [("$expr", .string "d"),
        ("$params", .object [("f", .bool true), ("g", operatorReference "a")])]),
      ("g", .bool false)]).entries) }

/-- The record is where its operator starts, and the other object is not. -/
theorem plain_starting_value_covered :
    let s := (Session.new none .empty 64).run [.compile ⟨[.named "a"], [], []⟩]
    (∃ h s' update params rest, Compile.operator ScopeTree.rootId coveredRecord s = .ok h s' ∧
      s.Told (.add (.plain (some (.object [("min", .bool false), ("max", .bool true)])) update)
        params true :: rest) s') ∧
    ∃ h s' update params rest, Compile.operator ScopeTree.rootId carriedLiterals s = .ok h s' ∧
      s.Told (.add (.plain none update) params true :: rest) s' := by
  intro s
  have hrecord := plain_starting_value s ScopeTree.rootId coveredRecord _ (by decide) (.inl rfl) rfl
  have hcarried :=
    plain_starting_value s ScopeTree.rootId carriedLiterals _ (by decide) (.inl rfl) rfl
  obtain ⟨h₁, s₁, hok₁⟩ :
      ∃ h s', Compile.operator ScopeTree.rootId coveredRecord s = .ok h s' := by
    refine Compile.exists_of_succeeds ?_
    simp only [s]
    cbv
  obtain ⟨h₂, s₂, hok₂⟩ :
      ∃ h s', Compile.operator ScopeTree.rootId carriedLiterals s = .ok h s' := by
    refine Compile.exists_of_succeeds ?_
    simp only [s]
    cbv
  obtain ⟨update₁, params₁, rest₁, htold₁, -⟩ := hrecord.ok hok₁
  obtain ⟨update₂, params₂, rest₂, htold₂, -⟩ := hcarried.ok hok₂
  exact ⟨⟨h₁, s₁, update₁, params₁, rest₁, hok₁, htold₁⟩,
    h₂, s₂, update₂, params₂, rest₂, hok₂, htold₂⟩

end Dataflow
