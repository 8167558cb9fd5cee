import Dataflow.Proofs.HeldHandles
import Mathlib.Data.List.Nodup

/-!
# Which records a node keeps

A node keeps its records as a bag in which order is stable. A pulse takes away its removals one by
one, each from what the others have left, and then inserts. `apply_eq` says what this comes to
without running through the removals: the record at a place survives if as many of the same stand
before it as are to be removed (`survives`). The main result, `kept_records`, adds that nothing else
changes, and that only requests that hand something to a node have a say in its records.
-/

namespace Dataflow

namespace Json

theorem same_iff {a b : Json} : a.same b = true ↔ a.canonical = b.canonical := decide_eq_true_iff

@[simp] theorem same_self (a : Json) : a.same a = true := same_iff.mpr rfl

theorem same_comm (a b : Json) : a.same b = b.same a := by
  rw [Bool.eq_iff_iff, same_iff, same_iff]
  exact eq_comm

/-- Values that are the same are the same as the same values. -/
theorem same_congr {a b : Json} (h : a.same b = true) (c : Json) : c.same a = c.same b := by
  rw [Bool.eq_iff_iff, same_iff, same_iff, same_iff.mp h]

theorem canonicalMembers_eq_map (members : List (String × Json)) :
    canonicalMembers members = members.map fun m => (m.1, m.2.canonical) := by
  induction members with
  | nil => rfl
  | cons m rest ih => rw [canonicalMembers, List.map_cons, ih]

/-- Members with different keys are put in one order, whatever order they come in. -/
theorem sorted_members_eq {members others : List (String × Json)}
    (hkeys : (members.map Prod.fst).Nodup) (h : members.Perm others) :
    members.mergeSort (fun a b => decide (a.1 ≤ b.1)) =
      others.mergeSort fun a b => decide (a.1 ≤ b.1) := by
  have htrans : ∀ a b c : String × Json,
      decide (a.1 ≤ b.1) = true → decide (b.1 ≤ c.1) = true → decide (a.1 ≤ c.1) = true := by
    simp only [decide_eq_true_eq]
    exact fun a b c => String.le_trans
  have htotal : ∀ a b : String × Json, (decide (a.1 ≤ b.1) || decide (b.1 ≤ a.1)) = true := by
    simp only [Bool.or_eq_true, decide_eq_true_eq]
    exact fun a b => String.le_total a.1 b.1
  have hsorted : ∀ ms : List (String × Json),
      (ms.mergeSort fun a b => decide (a.1 ≤ b.1)).Pairwise fun a b => a.1 ≤ b.1 := by
    intro ms
    simpa only [decide_eq_true_eq] using List.pairwise_mergeSort htrans htotal ms
  have hperm := (List.mergeSort_perm members fun a b => decide (a.1 ≤ b.1)).trans
    (h.trans (List.mergeSort_perm others fun a b => decide (a.1 ≤ b.1)).symm)
  refine List.Perm.eq_of_pairwise (fun a b ha hb hab hba => ?_) (hsorted _) (hsorted _) hperm
  -- Two members that are sorted either way have one key, and so they are one member.
  have hmem : a ∈ members := List.mem_mergeSort.mp ha
  have hmem' : b ∈ members := h.mem_iff.mpr (List.mem_mergeSort.mp hb)
  exact List.inj_on_of_nodup_map hkeys hmem hmem' (String.le_antisymm hab hba)

/-- Objects are the same if they have the same members up to their order, and only then. -/
theorem same_object_iff {members others : List (String × Json)}
    (hkeys : (members.map Prod.fst).Nodup) : (object members).same (.object others) = true ↔
      (canonicalMembers members).Perm (canonicalMembers others) := by
  rw [same_iff, canonical, canonical, object.injEq]
  constructor
  · intro hsorted
    have hperm := List.mergeSort_perm (canonicalMembers members) fun a b => decide (a.1 ≤ b.1)
    rw [hsorted] at hperm
    exact hperm.symm.trans (List.mergeSort_perm _ _)
  · refine sorted_members_eq ?_
    rwa [canonicalMembers_eq_map, List.map_map]

theorem same_object_of_perm {members others : List (String × Json)}
    (hkeys : (members.map Prod.fst).Nodup) (h : members.Perm others) :
    (object members).same (.object others) = true := by
  rw [same_object_iff hkeys, canonicalMembers_eq_map, canonicalMembers_eq_map]
  exact h.map _

/-! ## Occurrences -/

/-- How many of some records are the same as a given one. -/
def occurrences (r : Json) (records : List Json) : Nat := records.countP fun held => held.same r

@[simp] theorem occurrences_nil (r : Json) : occurrences r [] = 0 := rfl

theorem occurrences_cons (r x : Json) (records : List Json) :
    occurrences r (x :: records) = occurrences r records + if x.same r then 1 else 0 :=
  List.countP_cons

theorem occurrences_append (r : Json) (xs ys : List Json) :
    occurrences r (xs ++ ys) = occurrences r xs + occurrences r ys :=
  List.countP_append

theorem occurrences_congr {a b : Json} (h : a.same b = true) (records : List Json) :
    occurrences a records = occurrences b records := by
  simp only [occurrences, same_congr h]

end Json

namespace Changeset

open Json

/-! ## Removing one record -/

theorem removeFirst_cons_same {x r : Json} (h : x.same r = true) (records : List Json) :
    removeFirst (x :: records) r = records :=
  List.eraseP_cons_of_pos h

theorem removeFirst_cons_other {x r : Json} (h : ¬ x.same r = true) (records : List Json) :
    removeFirst (x :: records) r = x :: removeFirst records r :=
  List.eraseP_cons_of_neg h

/-- A removal takes away one of the records that are the same, if there is one. -/
theorem occurrences_removeFirst (c r : Json) (records : List Json) :
    occurrences c (removeFirst records r) = occurrences c records - if r.same c then 1 else 0 := by
  induction records with
  | nil => simp [removeFirst]
  | cons x rest ih =>
    by_cases hx : x.same r = true
    · -- What is taken away counts as a `c` exactly if the removal does.
      have hc : x.same c = r.same c := by
        rw [same_comm x, same_comm r]
        exact same_congr hx c
      rw [removeFirst_cons_same hx, occurrences_cons, hc]
      omega
    · rw [removeFirst_cons_other hx, occurrences_cons, occurrences_cons, ih]
      by_cases hr : r.same c = true
      · -- The record that stays is no `c`, or it would be the same as the removal.
        have hxc : ¬ x.same c = true := by
          rwa [← same_congr hr x]
        simp only [if_pos hr, if_neg hxc]
        omega
      · simp only [if_neg hr]
        omega

/-- Several removals take away as many as there are to take. -/
theorem occurrences_removeAll (c : Json) (removed records : List Json) :
    occurrences c (removed.foldl removeFirst records) =
      occurrences c records - occurrences c removed := by
  induction removed generalizing records with
  | nil => simp
  | cons r rest ih =>
    rw [List.foldl_cons, ih, occurrences_removeFirst, occurrences_cons]
    omega

/-! ## Removing several records -/

theorem removeAll_nil (removed : List Json) : removed.foldl removeFirst [] = [] := by
  induction removed with
  | nil => rfl
  | cons r rest ih => exact ih

/-- Several removals take away the first record if it is to be removed at all, and then the earliest
removal of it is done. -/
theorem removeAll_cons (removed : List Json) (r : Json) (rest : List Json) :
    removed.foldl removeFirst (r :: rest) =
      if occurrences r removed = 0 then r :: removed.foldl removeFirst rest
      else (removeFirst removed r).foldl removeFirst rest := by
  induction removed generalizing rest with
  | nil => rfl
  | cons x removed ih =>
    rw [List.foldl_cons, occurrences_cons]
    by_cases hx : x.same r = true
    · rw [removeFirst_cons_same (by rwa [same_comm]), if_pos hx, if_neg (Nat.succ_ne_zero _),
        removeFirst_cons_same hx]
    · rw [removeFirst_cons_other (by rwa [same_comm]), if_neg hx, Nat.add_zero, ih,
        removeFirst_cons_other hx]
      rfl

/-- Whether a record is kept at its place: the removals of it are used up on the records before
it. -/
def survives (removed records : List Json) : Json × Nat → Bool
  | (r, place) => decide (occurrences r removed ≤ occurrences r (records.take place))

/-- The records that are kept, in their order. -/
def survivors (removed records : List Json) : List Json :=
  (records.zipIdx.filter (survives removed records)).map Prod.fst

/-- The survivors behind the records `seen`. The removals left are those that `seen` did not use
up. -/
private theorem removeAll_from (removed seen rest left : List Json)
    (hleft : ∀ c, occurrences c left = occurrences c removed - occurrences c seen) :
    left.foldl removeFirst rest =
      ((rest.zipIdx seen.length).filter (survives removed (seen ++ rest))).map Prod.fst := by
  -- One record after the other is seen; its place is the number of those seen before.
  induction rest generalizing seen left with
  | nil =>
    rw [removeAll_nil]
    rfl
  | cons r rest ih =>
    have hsplit : seen ++ r :: rest = (seen ++ [r]) ++ rest := by simp
    have hlength : seen.length + 1 = (seen ++ [r]).length := by simp
    have htake : (seen ++ r :: rest).take seen.length = seen := List.take_left
    have hsurvives : survives removed (seen ++ r :: rest) (r, seen.length) = true ↔
        occurrences r left = 0 := by
      rw [survives, htake, decide_eq_true_iff, hleft]
      omega
    have hseen : ∀ c, occurrences c (seen ++ [r]) =
        occurrences c seen + if r.same c then 1 else 0 := by
      intro c
      rw [occurrences_append, occurrences_cons, occurrences_nil, Nat.zero_add]
    rw [removeAll_cons, List.zipIdx_cons, hlength]
    by_cases hr : occurrences r left = 0
    · rw [if_pos hr, List.filter_cons_of_pos (hsurvives.mpr hr), List.map_cons, hsplit]
      congr 1
      refine ih (seen ++ [r]) left fun c => ?_
      rw [hseen]
      by_cases hc : r.same c = true
      · -- No removal of `r` is left, so none is left of what is the same.
        have hzero : occurrences c left = 0 := by rw [← occurrences_congr hc, hr]
        have := hleft c
        omega
      · rw [if_neg hc]
        exact hleft c
    · rw [if_neg hr, List.filter_cons_of_neg (mt hsurvives.mp hr), hsplit]
      refine ih (seen ++ [r]) (removeFirst left r) fun c => ?_
      rw [occurrences_removeFirst, hleft, hseen]
      omega

/-- The records after a change are those that survive the removals, and then the inserted ones. -/
theorem apply_eq (c : Changeset) (records : List Json) :
    c.apply records = survivors c.removed records ++ c.inserted := by
  rw [apply, removeAll_from c.removed [] records c.removed fun _ => rfl]
  rfl

/-- The records that are kept stand in the order in which they stood. -/
theorem survivors_sublist (removed records : List Json) :
    (survivors removed records).Sublist records := by
  have h := (List.filter_sublist (p := survives removed records) (l := records.zipIdx)).map Prod.fst
  rwa [List.zipIdx_map_fst] at h

/-- How many records of a kind a change leaves: the removals take what there is, and then the
inserted ones are added. -/
theorem occurrences_apply (c : Changeset) (r : Json) (records : List Json) :
    occurrences r (c.apply records) =
      occurrences r records - occurrences r c.removed + occurrences r c.inserted := by
  rw [apply, occurrences_append, occurrences_removeAll]

end Changeset

/-! ## Requests -/

/-- Whether a request hands something to the records of a node. -/
def Request.feeds (node : Handle) : Request → Bool
  | .ingest fed _ _ => fed == node
  | .pulse fed _ => fed == node
  | _ => false

/-- Whether a request brings data, to whatever node. -/
def Request.isData : Request → Bool
  | .ingest .. => true
  | .fetch .. => true
  | .pulse .. => true
  | _ => false

/-- The records of a node that a request hands something to. -/
def Request.fed (records : List Json) : Request → List Json
  | .ingest _ data _ => records ++ Graph.Edit.ingested data
  | .pulse _ changes => Changeset.survivors changes.removed records ++ changes.inserted
  | _ => records

namespace Graph

variable {g : Graph} {node : Handle}

theorem node?_adjusted (g : Graph) (h : Handle) (f : Node → Node) :
    (g.adjusted h f).node? node = if h = node then (g.node? node).map f else g.node? node := by
  show (g.nodes.modify h f)[node]? = _
  rw [List.getElem?_modify]
  by_cases heq : h = node
  · simp only [if_pos heq]; rfl
  · simp only [if_neg heq, node?, Option.map_eq_map]
    exact Option.map_id'

theorem records_grown (h : node < g.size) (made : Node) (edges : List Edge) :
    (g.grown made edges).records node = g.records node := by
  have hnode : (g.grown made edges).node? node = g.node? node := List.getElem?_append_left h
  rw [records, hnode, records]

/-- A change of records at one node. -/
theorem records_adjusted (h : node < g.size) (fed : Handle) (f : List Json → List Json) :
    (g.adjusted fed fun n => { n with records := f n.records }).records node =
      if fed = node then f (g.records node) else g.records node := by
  obtain ⟨n, hn⟩ := Option.isSome_iff_exists.mp (isSome_node?.mpr h)
  rw [records, node?_adjusted, records, hn]
  split <;> rfl

/-- What is handed to a node that exists is never refused. -/
theorem refusal?_of_feeds (h : node < g.size) {r : Request} (hr : r.feeds node = true) :
    g.refusal? r = none := by
  cases r with
  | ingest fed data format =>
    obtain rfl : fed = node := beq_iff_eq.mp hr
    exact refusal?_eq_none (by simpa [Request.checked] using h) (by simp)
  | pulse fed changes =>
    obtain rfl : fed = node := beq_iff_eq.mp hr
    exact refusal?_eq_none (by simpa [Request.checked] using h) (by simp)
  | _ => exact absurd hr Bool.false_ne_true

/-- What a request leaves of the records of a node: nothing changes them but what is handed to the
node. -/
theorem records_after (h : node < g.size) (r : Request) :
    (g.after r).records node = if r.feeds node then r.fed (g.records node) else g.records node := by
  unfold after
  cases hr : g.refusal? r with
  | some e =>
    -- What is refused is not handed to a node that exists, and no node is changed.
    have hfeeds : ¬ r.feeds node = true := fun hf => by simp [refusal?_of_feeds h hf] at hr
    obtain ⟨parent, children, he⟩ := g.refused_eq_linked r
    rw [if_neg hfeeds]
    simp only [he]
    rfl
  | none =>
    cases r with
    | add behavior params react => exact records_grown h _ _
    | stream source params => exact records_grown h _ _
    | connect parent children => rfl
    | listen l => rfl
    | fetch fed resource format => rfl
    | addTarget source target =>
      show (g.adjusted source _).records node = g.records node
      obtain ⟨n, hn⟩ := Option.isSome_iff_exists.mp (isSome_node?.mpr h)
      rw [records, node?_adjusted, records, hn]
      split
      · simp only [Option.map_some]
        split <;> rfl
      · rfl
    | ingest fed data format =>
      show (g.adjusted fed fun n => { n with records := n.records ++ _ }).records node = _
      rw [records_adjusted h fed (· ++ Edit.ingested data)]
      simp only [Request.feeds, Request.fed, beq_iff_eq]
    | pulse fed changes =>
      show (g.adjusted fed fun n => { n with records := changes.apply n.records }).records node = _
      rw [records_adjusted h fed changes.apply]
      simp only [Request.feeds, Request.fed, beq_iff_eq, Changeset.apply_eq]

/-- The records of a node after a run are those that it has been handed, in turn. -/
theorem records_performAll (h : node < g.size) (requests : List Request) :
    (g.performAll requests).records node =
      (requests.filter (Request.feeds node)).foldl Request.fed (g.records node) := by
  rw [performAll_eq]
  induction requests generalizing g with
  | nil => rfl
  | cons r rest ih =>
    rw [List.foldl_cons, ih (Nat.lt_of_lt_of_le h (g.size_le_after r)), records_after h]
    by_cases hr : r.feeds node = true
    · rw [if_pos hr, List.filter_cons_of_pos hr, List.foldl_cons]
    · rw [if_neg hr, List.filter_cons_of_neg hr]

/-- Data makes no nodes. -/
theorem size_after_data {r : Request} (hr : r.isData = true) : (g.after r).size = g.size := by
  unfold after
  cases g.refusal? r with
  | some e =>
    obtain ⟨parent, children, he⟩ := g.refused_eq_linked r
    simp only [he, size_linked]
  | none =>
    cases r with
    | ingest node data format => exact size_adjusted g node _
    | fetch node resource format => rfl
    | pulse node changes => exact size_adjusted g node _
    | _ => exact absurd hr Bool.false_ne_true

theorem size_performAll_data {requests : List Request} (hdata : ∀ r ∈ requests, r.isData = true) :
    (g.performAll requests).size = g.size := by
  rw [performAll_eq]
  induction requests generalizing g with
  | nil => rfl
  | cons r rest ih =>
    rw [List.foldl_cons, ih fun q hq => hdata q (List.mem_cons_of_mem _ hq),
      size_after_data (hdata r List.mem_cons_self)]

theorem records_of_size_le (h : g.size ≤ node) : g.records node = [] := by
  rw [records, node?, List.getElem?_eq_none h]
  rfl

/-! ## Main result -/

/-- What a pulse at a node that exists makes of the graph. -/
structure Pulsed (node : Handle) (changes : Changeset) (g g' : Graph) : Prop where
  /-- What survives of the records comes first, and then the inserted ones. -/
  records : g'.records node = Changeset.survivors changes.removed (g.records node) ++
    changes.inserted
  /-- They stand in the order in which they stood before. -/
  order : (Changeset.survivors changes.removed (g.records node)).Sublist (g.records node)
  occurrences : ∀ r : Json, r.occurrences (g'.records node) =
    r.occurrences (g.records node) - r.occurrences changes.removed +
      r.occurrences changes.inserted
  /-- Nothing else of the node is changed. -/
  itself : g'.node? node = (g.node? node).map fun n => { n with records := g'.records node }
  others : ∀ other, other ≠ node → g'.node? other = g.node? other
  edges : g'.edges = g.edges
  listeners : g'.listeners = g.listeners
  loads : g'.loads = g.loads

theorem pulsed_carried (h : node < g.size) (changes : Changeset) :
    Pulsed node changes g (g.carried (.pulse node changes)) := by
  obtain ⟨n, hn⟩ := Option.isSome_iff_exists.mp (isSome_node?.mpr h)
  have hrecords : (g.carried (.pulse node changes)).records node =
      changes.apply (g.records node) := by
    rw [carried, records_adjusted h node changes.apply, if_pos rfl]
  refine ⟨?_, Changeset.survivors_sublist _ _, fun r => ?_, ?_, fun other hne => ?_, rfl, rfl, rfl⟩
  · rw [hrecords, Changeset.apply_eq]
  · rw [hrecords, Changeset.occurrences_apply]
  · rw [hrecords, carried, node?_adjusted, if_pos rfl, records, hn]
    rfl
  · rw [carried, node?_adjusted, if_neg (Ne.symm hne)]

/-- A pulse at a node that exists leaves of its records those that survive the removals, followed by
the inserted ones, and all else as it was. At no node it fails and changes nothing. So after data of
any kind, at any nodes, the records of a node follow from what was ingested into it and from its
pulses. -/
theorem kept_records (g : Graph) (node : Handle) :
    (∀ changes : Changeset,
      if node < g.size then
        ∃ g', perform (.pulse node changes) g = .ok node g' ∧ Pulsed node changes g g'
      else perform (.pulse node changes) g = .error (.unknownOperator node) g) ∧
    ∀ requests : List Request, (∀ r ∈ requests, r.isData = true) →
      (g.performAll requests).records node =
        if node < g.size then
          (requests.filter (Request.feeds node)).foldl Request.fed (g.records node)
        else [] := by
  by_cases h : node < g.size
  · simp only [if_pos h]
    refine ⟨fun changes => ?_, fun requests _ => records_performAll h requests⟩
    have hok : g.refusal? (.pulse node changes) = none :=
      refusal?_of_feeds h (beq_self_eq_true node)
    exact ⟨_, by rw [perform_eq, hok]; rfl, pulsed_carried h changes⟩
  · simp only [if_neg h]
    refine ⟨fun changes => ?_, fun requests hdata => records_of_size_le ?_⟩
    · rw [perform_eq]
      simp only [refusal?, Request.checked, missing?_cons, if_neg h, refused]
    · rw [size_performAll_data hdata]
      exact Nat.not_lt.mp h

/-- An object with two members, in either order. -/
def twoMembers (firstKey secondKey : String) : Json :=
  .object [(firstKey, .string firstKey), (secondKey, .string secondKey)]

/-- A changeset that names a record twice that is held three times, one that is held with its
members in another order, one that it inserts as well, and one that is not held. -/
def mixedChanges : Changeset :=
  ⟨[.string "b", .string "a"],
    [.string "a", .string "missing", twoMembers "y" "x", .string "b", .string "a"]⟩

/-- Records of which one is held three times. -/
def heldRecords : List Json :=
  [.string "a", .string "c", twoMembers "x" "y", .string "a", .string "b", .string "a"]

/-- Two nodes of which the first holds records. -/
def twoNodes : Graph :=
  Graph.empty.performAll [.add (.plain none none) .empty true, .add (.plain none none) .empty true,
    .ingest 0 (.array heldRecords) none]

/-- Data for both nodes and for one that does not exist, with a resource that is none. -/
def mixedData : List Request :=
  [.ingest 1 (.array [.string "a"]) none, .pulse 0 mixedChanges, .pulse 7 mixedChanges,
    .fetch 0 (.bool true) none, .ingest 0 (.object []) none]

theorem kept_records_mixed :
    (∀ r ∈ mixedData, r.isData = true) ∧
      (twoNodes.performAll mixedData).records 0 =
        [.string "c", .string "a", .string "b", .string "a", .object []] := by
  have hdata : ∀ r ∈ mixedData, r.isData = true := by decide
  refine ⟨hdata, ?_⟩
  have hsame : (twoMembers "x" "y").canonical = (twoMembers "y" "x").canonical :=
    Json.same_iff.mp (Json.same_object_of_perm (by decide) (.swap _ _ _))
  have hother : ∀ k l s, (twoMembers k l).canonical ≠ .string s := by
    intro k l s
    simp [twoMembers, Json.canonical]
  -- Of the three alike the first two are removed, and of the removals one finds nothing.
  have hkept : Changeset.survivors mixedChanges.removed heldRecords =
      [.string "c", .string "a"] := by
    simp [Changeset.survivors, Changeset.survives, Json.occurrences, Json.same, Json.canonical,
      mixedChanges, heldRecords, hsame, hother, (hother _ _ _).symm]
  have hrecords : twoNodes.records 0 = heldRecords := rfl
  rw [(kept_records twoNodes 0).2 mixedData hdata, hrecords]
  show Changeset.survivors mixedChanges.removed heldRecords ++ _ ++ _ = _
  rw [hkept]
  rfl

end Graph

end Dataflow
