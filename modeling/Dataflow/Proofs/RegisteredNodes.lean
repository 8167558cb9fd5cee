import Dataflow.Proofs.LiveReads
import Dataflow.Proofs.RequestOrder
import Dataflow.Proofs.TableLists

/-!
# What registering a node records

A registration records one node in a list of slots (`OperatorSpec.slots`): that of its entry, that
of the output if the entry is marked, and those of its public names. `Slot.held_putAll` says what a
scope has in any slot afterwards.

The slots of the public names come last, and recording them fails only where there is no scope. So a
registration that succeeds has filled all its slots (`ends_register_slots`), and one that fails does
so before the node is published (`enter_of_register_error`).
-/

namespace Dataflow

/-! ## Slots -/

deriving instance DecidableEq for Slot

namespace Slot

/-- The node that a scope has in a slot. -/
def held (sc : Scope) : Slot → Option Handle
  | .node id => sc.nodes.get? id
  | .signal name => sc.signals.get? name
  | .scale name => sc.scales.get? name
  | .role dataset name => (sc.roles dataset).get? name
  | .root => sc.root

/-- The node stands in its slot, and all other slots are as they were. -/
theorem held_put (slot : Slot) (handle : Handle) (sc : Scope) (other : Slot) :
    other.held (slot.put handle sc) = if slot = other then some handle else other.held sc := by
  cases slot with
  | node id =>
    cases other with
    | node id' => simp [held, put, Table.get?_insert]
    | _ => rfl
  | signal name =>
    cases other with
    | signal name' => simp [held, put, Table.get?_insert]
    | _ => rfl
  | scale name =>
    cases other with
    | scale name' => simp [held, put, Table.get?_insert]
    | _ => rfl
  | root =>
    cases other with
    | root => simp [held, put]
    | _ => rfl
  | role dataset name =>
    cases other with
    | role dataset' name' =>
      show (((Cell.role dataset name).put handle sc).roles dataset').get? name' = _
      rw [Cell.roles_put]
      -- Of the same dataset only the role with this name is set, and of others none.
      by_cases hd : dataset = dataset'
      · subst hd
        simp [held, Table.get?_insert]
      · simp [held, hd]
    | _ => rfl

/-- Records a node in several slots, one after the other. -/
def putAll (handle : Handle) (slots : List Slot) (sc : Scope) : Scope :=
  slots.foldl (fun sc slot => slot.put handle sc) sc

theorem putAll_append (handle : Handle) (xs ys : List Slot) (sc : Scope) :
    putAll handle (xs ++ ys) sc = putAll handle ys (putAll handle xs sc) :=
  List.foldl_append

/-- The node stands in each of the slots, however often it occurs. -/
theorem held_putAll (handle : Handle) (slots : List Slot) (sc : Scope) (other : Slot) :
    other.held (putAll handle slots sc) = if other ∈ slots then some handle else other.held sc := by
  induction slots generalizing sc with
  | nil => simp [putAll]
  | cons slot rest ih =>
    show other.held (putAll handle rest (slot.put handle sc)) = _
    -- A slot that comes again later gets the same node again.
    rw [ih, held_put]
    by_cases hrest : other ∈ rest
    · simp [hrest]
    · by_cases heq : slot = other
      · simp [heq]
      · have hne : ¬ other = slot := fun h => heq h.symm
        simp [hrest, heq, hne]

/-- A dataset is recorded once one of its roles is. -/
theorem contains_putAll (handle : Handle) (slots : List Slot) (sc : Scope) (dataset : String) :
    (putAll handle slots sc).data.contains dataset = true ↔
      sc.data.contains dataset = true ∨ ∃ name, Slot.role dataset name ∈ slots := by
  induction slots generalizing sc with
  | nil => simp [putAll]
  | cons slot rest ih =>
    show (putAll handle rest (slot.put handle sc)).data.contains dataset = true ↔ _
    rw [ih]
    -- Only a slot of a role reaches the table of the datasets.
    cases slot with
    | role dataset' name =>
      simp only [put, Table.contains, Table.get?_insert, List.mem_cons, Slot.role.injEq]
      by_cases hd : dataset' = dataset
      · subst hd
        simp only [if_true, Option.isSome_some, true_or, true_and, true_iff]
        exact .inr ⟨name, .inl rfl⟩
      · have hne : ¬ dataset = dataset' := fun h => hd h.symm
        simp [hd, hne]
    | _ => simp [put]

/-- What a scope has besides slots. -/
structure SameFrame (sc sc' : Scope) : Prop where
  parent : sc'.parent = sc.parent
  itemPath : sc'.itemPath = sc.itemPath
  functions : sc'.functions = sc.functions
  forks : sc'.forks = sc.forks
  library : sc'.library = sc.library

theorem sameFrame_putAll (handle : Handle) (slots : List Slot) (sc : Scope) :
    SameFrame sc (putAll handle slots sc) := by
  induction slots generalizing sc with
  | nil => exact ⟨rfl, rfl, rfl, rfl, rfl⟩
  | cons slot rest ih =>
    have hfirst : SameFrame sc (slot.put handle sc) := by
      cases slot <;> exact ⟨rfl, rfl, rfl, rfl, rfl⟩
    have hrest : SameFrame (slot.put handle sc) (putAll handle rest (slot.put handle sc)) := ih _
    exact ⟨hrest.parent.trans hfirst.parent, hrest.itemPath.trans hfirst.itemPath,
      hrest.functions.trans hfirst.functions, hrest.forks.trans hfirst.forks,
      hrest.library.trans hfirst.library⟩

end Slot

/-! ## The slots of an operator -/

namespace OperatorSpec

/-- Whether the node of an operator fills a role of a dataset. -/
def fills (spec : OperatorSpec) (dataset name : String) : Bool :=
  ((spec.data.bind (·.get? dataset)).getD []).contains name

/-- The slots before the node is published. -/
def ownSlots (spec : OperatorSpec) : List Slot :=
  .node spec.id :: if spec.root then [.root] else []

/-- The slots of the public names. -/
def publicSlots (spec : OperatorSpec) : List Slot :=
  (spec.signal.map Slot.signal).toList ++ (spec.scale.map Slot.scale).toList ++
    ((spec.data.map Table.entries).getD []).flatMap fun e => e.2.map (Slot.role e.1)

/-- All slots in which the node of an operator is recorded. -/
def slots (spec : OperatorSpec) : List Slot := spec.ownSlots ++ spec.publicSlots

variable {spec : OperatorSpec}

theorem role_mem_roles (data : Option (Table String (List String))) (dataset name : String) :
    Slot.role dataset name ∈
        ((data.map Table.entries).getD []).flatMap (fun e => e.2.map (Slot.role e.1)) ↔
      ((data.bind (·.get? dataset)).getD []).contains name = true := by
  cases data with
  | none => simp
  | some t =>
    simp only [Option.map_some, Option.getD_some, Option.bind_some, List.mem_flatMap, List.mem_map,
      Slot.role.injEq, List.contains_iff_mem]
    constructor
    · rintro ⟨⟨d, names⟩, hmem, n, hn, rfl, rfl⟩
      rw [Table.mem_entries_iff.mp hmem]
      exact hn
    · intro hn
      cases hget : t.get? dataset with
      | none =>
        rw [hget] at hn
        cases hn
      | some names =>
        rw [hget] at hn
        exact ⟨(dataset, names), Table.mem_entries_iff.mpr hget, name, hn, rfl, rfl⟩

theorem node_mem_slots {id : EntryId} : Slot.node id ∈ spec.slots ↔ id = spec.id := by
  cases hr : spec.root <;> simp [slots, ownSlots, publicSlots, hr]

theorem root_mem_slots : Slot.root ∈ spec.slots ↔ spec.root = true := by
  cases hr : spec.root <;> simp [slots, ownSlots, publicSlots, hr]

theorem signal_mem_slots {name : String} :
    Slot.signal name ∈ spec.slots ↔ spec.signal = some name := by
  cases hr : spec.root <;> simp [slots, ownSlots, publicSlots, hr]

theorem scale_mem_slots {name : String} :
    Slot.scale name ∈ spec.slots ↔ spec.scale = some name := by
  cases hr : spec.root <;> simp [slots, ownSlots, publicSlots, hr]

theorem role_mem_slots {dataset name : String} :
    Slot.role dataset name ∈ spec.slots ↔ spec.fills dataset name = true := by
  rw [fills, ← role_mem_roles]
  cases hr : spec.root <;> simp [slots, ownSlots, publicSlots, hr]

end OperatorSpec

/-- A second change of a scope is made after the first. -/
theorem Session.edited_edited (s : Session) (scope : ScopeId) (f g : Scope → Scope) :
    (s.edited scope f).edited scope g = s.edited scope (g ∘ f) := by
  simp only [Session.edited, List.modify_modify_eq]

/-! ## Recording -/

namespace Compile

variable {scope : ScopeId} {s : Session}

/-- Recording a node in several slots of a scope that exists does not fail. -/
theorem ends_putAll (handle : Handle) (slots : List Slot) (known : scope < s.scopes.size) :
    Ends (forM slots fun slot => write (·.modify scope (slot.put handle))) s
      (fun _ s' => s' = s.edited scope (Slot.putAll handle slots)) fun _ _ => False := by
  induction slots generalizing s with
  | nil =>
    show s = s.edited scope id
    rw [Session.edited, List.modify_id]
  | cons slot rest ih =>
    rw [List.forM_cons, ends_bind, ends_modify]
    refine ⟨fun _ => ?_, fun hge => absurd known (Nat.not_lt.mpr hge)⟩
    -- Recording makes and removes no scope, so this one can still be written to.
    have hknown : scope < (s.edited scope (slot.put handle)).scopes.size := by simpa using known
    refine (ih hknown).mono (fun _ s' hs' => ?_) fun _ _ h => h
    rw [hs', Session.edited_edited]
    rfl

theorem forM_toList {α β : Type} (x : Option α) (g : α → β) (f : β → Compile Unit) :
    forM (x.map g).toList f = forM x fun a => f (g a) := by
  cases x with
  | none => rfl
  | some a => exact bind_pure (f (g a))

theorem forM_flatMap {α β : Type} (xs : List α) (g : α → List β) (f : β → Compile Unit) :
    forM (xs.flatMap g) f = forM xs fun a => forM (g a) f := by
  induction xs with
  | nil => rfl
  | cons x rest ih => rw [List.flatMap_cons, List.forM_append, List.forM_cons, ih]

/-- A node is published by recording it in the slots of its public names. -/
theorem publish_eq (spec : OperatorSpec) (handle : Handle) :
    publish scope spec handle =
      forM spec.publicSlots fun slot => write (·.modify scope (slot.put handle)) := by
  unfold publish
  rw [OperatorSpec.publicSlots, List.forM_append, List.forM_append, forM_toList, forM_toList,
    forM_flatMap, bind_assoc]
  simp only [List.forM_map]
  cases spec.data <;> rfl

/-- A node that has been entered stands in its own slots. -/
theorem ends_enter (spec : OperatorSpec) (handle : Handle) :
    Ends (enter scope spec handle) s
      (fun _ s' => scope < s.scopes.size ∧
        s'.scopes = (s.edited scope (Slot.putAll handle spec.ownSlots)).scopes)
      fun _ _ => True := by
  rw [enter_eq, ends_bind, ends_setNode]
  refine ⟨fun known => ?_, fun _ => trivial⟩
  rw [ends_bind]
  refine (ends_loads spec handle).mono ?_ fun _ _ _ => trivial
  rintro - s₁ ⟨-, -, -, hloaded⟩
  -- The links are made in the graph, so only the output is left to be recorded.
  have hlinks : ∀ s₂ : Session,
      s₂.scopes = (s.edited scope (Slot.putAll handle spec.ownSlots)).scopes →
      Ends (forM spec.parent fun parent => attach scope spec.id parent handle) s₂
        (fun _ s' => scope < s.scopes.size ∧
          s'.scopes = (s.edited scope (Slot.putAll handle spec.ownSlots)).scopes)
        fun _ _ => True := fun s₂ h₂ =>
    (ends_links spec handle).mono (fun _ _ h => ⟨known, h.2.2.trans h₂⟩) fun _ _ _ => trivial
  rw [ends_bind]
  cases hroot : spec.root with
  | false =>
    refine hlinks s₁ ?_
    rw [hloaded, OperatorSpec.ownSlots, hroot]
    rfl
  | true =>
    rw [if_pos rfl]
    refine ends_modify.mpr ⟨fun _ => hlinks _ ?_, fun _ => trivial⟩
    have hedited : (s₁.edited scope (Slot.root.put handle)).scopes =
        ((s.edited scope ((Slot.node spec.id).put handle)).edited scope
          (Slot.root.put handle)).scopes := by
      simp only [Session.edited, hloaded]
    refine hedited.trans ?_
    rw [Session.edited_edited, OperatorSpec.ownSlots, hroot]
    rfl

theorem ends_publish (spec : OperatorSpec) (handle : Handle) (known : scope < s.scopes.size) :
    Ends (publish scope spec handle) s
      (fun _ s' => s' = s.edited scope (Slot.putAll handle spec.publicSlots)) fun _ _ => False := by
  rw [publish_eq]
  exact ends_putAll handle spec.publicSlots known

/-- Once a node has been entered, publishing it does not fail. -/
theorem ends_entered (spec : OperatorSpec) (handle : Handle) :
    Ends (enter scope spec handle) s
      (fun _ s₁ => Ends (publish scope spec handle) s₁
        (fun _ s' => scope < s.scopes.size ∧
          s'.scopes = (s.edited scope (Slot.putAll handle spec.slots)).scopes) fun _ _ => False)
      fun _ _ => True := by
  refine (ends_enter spec handle).mono (fun _ s₁ ⟨known, h₁⟩ => ?_) fun _ _ _ => trivial
  have hknown : scope < s₁.scopes.size := by
    rw [h₁]
    simpa using known
  refine (ends_publish spec handle hknown).mono (fun _ s' hs' => ⟨known, ?_⟩) fun _ _ h => h
  have hedited : s'.scopes = ((s.edited scope (Slot.putAll handle spec.ownSlots)).edited scope
      (Slot.putAll handle spec.publicSlots)).scopes := by
    simp only [hs', Session.edited, h₁]
  rw [hedited, Session.edited_edited]
  have hall : Slot.putAll handle spec.publicSlots ∘ Slot.putAll handle spec.ownSlots =
      Slot.putAll handle spec.slots := funext fun sc => (Slot.putAll_append handle _ _ sc).symm
  rw [hall]

/-- A registration that succeeds has recorded the node in all its slots. -/
theorem ends_register_slots (spec : OperatorSpec) (handle : Handle) :
    Ends (register scope spec handle) s
      (fun _ s' => scope < s.scopes.size ∧
        s'.scopes = (s.edited scope (Slot.putAll handle spec.slots)).scopes)
      fun _ _ => True := by
  rw [register_eq_enter, ends_bind]
  exact (ends_entered spec handle).mono
    (fun _ _ h => h.mono (fun _ _ h => h) fun _ _ h => h.elim) fun _ _ h => h

/-- A registration that fails has not come so far as to publish the node. -/
theorem enter_of_register_error {spec : OperatorSpec} {handle : Handle} {e : CompileError}
    {s' : Session} (h : register scope spec handle s = .error e s') :
    enter scope spec handle s = .error e s' := by
  rw [register_eq_enter, bind_eq_error] at h
  obtain henter | ⟨_, s₁, henter, hpublish⟩ := h
  · exact henter
  · exact (((ends_entered spec handle).ok henter).error hpublish).elim

end Compile

end Dataflow
