import Dataflow.Reference

/-!
# How entries may be named

An entry is named by a string or an integer. Two functions read such a name: `EntryId.decode?` where
an entry is declared or linked to, and `EntryId.ofJson?` where a parameter or a listener refers to
one. Both give the same name wherever both give one, but the former accepts fewer integers. So an
entry can always be referred to by the value that declares it, while an integer that needs all 64
bits can be referred to and not be declared. `positions_agree` says exactly where two positions read
a value alike, and that the text of a name will do in all of them.
-/

namespace Dataflow

/-- An integer that fits an unsigned 64-bit word only. -/
def Json.BeyondSigned (v : Json) : Prop :=
  ∃ n fits, v = .number (.integer n fits) ∧ 0x8000000000000000 ≤ n

/-- The greatest integer that fits a signed word. -/
def greatestSigned : Json := .number (.integer 0x7FFFFFFFFFFFFFFF (by decide))

/-- The least integer that fits an unsigned word only. -/
def leastUnsigned : Json := .number (.integer 0x8000000000000000 (by decide))

namespace EntryId

/-! ## The two readers -/

/-- Where an entry is declared, a name is one that can be referred to and fits a signed word. -/
theorem decode?_eq_some_iff {v : Json} {id : EntryId} :
    decode? v = some id ↔ ofJson? v = some id ∧ ¬ v.BeyondSigned := by
  unfold decode? ofJson? Json.BeyondSigned
  split
  · -- A string names the same entry to both.
    simp
  · rename_i n fits
    by_cases hn : n < 0x8000000000000000
    · simp [hn]
    · simp [hn, Int.not_lt.mp hn, fits]
  · simp

/-- Both read a value alike unless it is an integer that fits an unsigned word only. -/
theorem decode?_eq_ofJson?_iff {v : Json} : decode? v = ofJson? v ↔ ¬ v.BeyondSigned := by
  constructor
  · rintro heq ⟨n, fits, rfl, hn⟩
    have hsome : ofJson? (.number (.integer n fits)) = some ⟨toString n⟩ := rfl
    rw [← heq, decode?_eq_some_iff] at hsome
    exact hsome.2 ⟨n, fits, rfl, hn⟩
  · intro hv
    refine Option.ext fun id => ?_
    rw [decode?_eq_some_iff, and_iff_left hv]

/-- Not every name that can be referred to can be declared. -/
theorem declarable_not_as_referable :
    ¬ ∀ (v : Json) (id : EntryId), ofJson? v = some id ↔ decode? v = some id := by
  intro h
  have hdeclared := (h leastUnsigned _).mp rfl
  exact absurd hdeclared (by simp [decode?, leastUnsigned])

end EntryId

/-! ## Positions -/

/-- The positions in which an entry is named. -/
inductive Position where
  /-- The name of an operator that is declared. -/
  | operator
  /-- The name of a stream that is declared. -/
  | stream
  /-- The parent of an operator. -/
  | parent
  /-- The stream that a stream is derived from. -/
  | derived
  /-- The target of a listener. -/
  | target
  /-- A parameter that refers to a node. -/
  | parameter
  /-- The source of a listener, named directly. -/
  | source
  /-- The source of a listener, as a reference. -/
  | sourceReference
deriving DecidableEq

namespace Position

/-- Whether the position belongs to the structure of a specification, and not to a value in it. -/
def isStructural : Position → Bool
  | .operator | .stream | .parent | .derived | .target => true
  | .parameter | .source | .sourceReference => false

/-- A reference to what is named by a value. -/
def reference (v : Json) : Json := .object [("$ref", v)]

/-- A declaration or a parameter with a value in some position. -/
def wrap (v : Json) : Position → Json
  | .operator => .object [("id", v)]
  | .stream => .object [("id", v)]
  | .parent => .object [("id", .string "child"), ("parent", reference v)]
  | .derived => .object [("id", .string "child"), ("stream", reference v)]
  | .target => .object [("source", .string "source"), ("target", reference v)]
  | .parameter => reference v
  | .source => .object [("source", v), ("target", reference (.string "target"))]
  | .sourceReference =>
    .object [("source", reference v), ("target", reference (.string "target"))]

/-- The name that is read in some position. -/
def read? (w : Json) : Position → Option EntryId
  | .operator => (OperatorSpec.decode? w).map OperatorSpec.id
  | .stream => (StreamSpec.decode? w).map StreamSpec.id
  | .parent => (OperatorSpec.decode? w).bind OperatorSpec.parent
  | .derived => (StreamSpec.decode? w).bind StreamSpec.stream
  | .target => (UpdateSpec.decode? w).map UpdateSpec.target
  | .parameter =>
    match Reference.decode w with
    | .ok (some (.operator id)) => some id
    | _ => none
  | .source => (UpdateSpec.decode? w).bind UpdateSpec.sourceId?
  | .sourceReference => (UpdateSpec.decode? w).bind UpdateSpec.sourceId?

/-- Whether a value may be a name in some position. An object in place of the source of a listener
is a reference and no name. -/
def Takes (v : Json) : Position → Prop
  | .source => ∀ members, v ≠ .object members
  | _ => True

/-! ### What is read in each position -/

/-- A reference in the structure of a specification. -/
theorem ofReference?_object (v : Json) :
    EntryId.ofReference? (.object [("$ref", v)]) = EntryId.decode? v := by
  simp [EntryId.ofReference?, Fields.of?, Fields.required, Json.find]

theorem decode?_string (s : String) : EntryId.decode? (.string s) = some ⟨s⟩ := rfl

theorem read?_operator (v : Json) : operator.read? (operator.wrap v) = EntryId.decode? v := by
  cases h : EntryId.decode? v <;>
    simp [read?, wrap, OperatorSpec.decode?, Fields.of?, Fields.required, Fields.optional,
      Fields.defaulted, Json.find, h]

theorem read?_stream (v : Json) : stream.read? (stream.wrap v) = EntryId.decode? v := by
  cases h : EntryId.decode? v <;>
    simp [read?, wrap, StreamSpec.decode?, Fields.of?, Fields.required, Fields.optional,
      Json.find, h]

theorem read?_parent (v : Json) : parent.read? (parent.wrap v) = EntryId.decode? v := by
  cases h : EntryId.decode? v <;>
    simp [read?, wrap, reference, OperatorSpec.decode?, Fields.of?, Fields.required,
      Fields.optional, Fields.defaulted, Json.find, decode?_string, ofReference?_object, h]

theorem read?_derived (v : Json) : derived.read? (derived.wrap v) = EntryId.decode? v := by
  cases h : EntryId.decode? v <;>
    simp [read?, wrap, reference, StreamSpec.decode?, Fields.of?, Fields.required,
      Fields.optional, Json.find, decode?_string, ofReference?_object, h]

theorem read?_target (v : Json) : target.read? (target.wrap v) = EntryId.decode? v := by
  cases h : EntryId.decode? v <;>
    simp [read?, wrap, reference, UpdateSpec.decode?, Fields.of?, Fields.required,
      Fields.optional, Json.find, ofReference?_object, h]

theorem read?_parameter (v : Json) : parameter.read? (parameter.wrap v) = EntryId.ofJson? v := by
  cases h : EntryId.ofJson? v <;>
    simp [read?, wrap, reference, Reference.decode, Reference.ofRef, Except.map, Json.get?,
      Json.find, h]

/-- A listener with a given source, which is taken as it is. -/
theorem decode?_listener (v : Json) :
    UpdateSpec.decode? (.object [("source", v), ("target", reference (.string "target"))]) =
      some ⟨v, ⟨"target"⟩, none, none, none⟩ := by
  simp [reference, UpdateSpec.decode?, Fields.of?, Fields.required, Fields.optional, Json.find,
    ofReference?_object, decode?_string]

theorem read?_source {v : Json} (h : source.Takes v) :
    source.read? (source.wrap v) = EntryId.ofJson? v := by
  rw [read?, wrap, decode?_listener, Option.bind_some, UpdateSpec.sourceId?]
  split
  · rename_i members hv
    exact absurd hv (h members)
  · rfl

theorem read?_sourceReference (v : Json) :
    sourceReference.read? (sourceReference.wrap v) = EntryId.ofJson? v := by
  rw [read?, wrap, decode?_listener]
  simp [UpdateSpec.sourceId?, reference, Json.find]

/-- In a structural position a name is read as where an entry is declared, and in all others as
where one is referred to. -/
theorem read?_wrap {p : Position} {v : Json} (h : p.Takes v) :
    p.read? (p.wrap v) = if p.isStructural then EntryId.decode? v else EntryId.ofJson? v := by
  cases p with
  | operator => exact read?_operator v
  | stream => exact read?_stream v
  | parent => exact read?_parent v
  | derived => exact read?_derived v
  | target => exact read?_target v
  | parameter => exact read?_parameter v
  | source => exact read?_source h
  | sourceReference => exact read?_sourceReference v

/-- The text of a name names its entry in every position. -/
theorem read?_text (p : Position) (id : EntryId) :
    p.read? (p.wrap (.string id.text)) = some id := by
  have htakes : p.Takes (.string id.text) := by
    cases p <;> simp [Takes]
  rw [read?_wrap htakes]
  split <;> rfl

/-- Two positions read a value alike unless only one of them is structural and the value is an
integer that fits an unsigned word only. -/
theorem read?_eq_iff {p q : Position} {v : Json} (hp : p.Takes v) (hq : q.Takes v) :
    p.read? (p.wrap v) = q.read? (q.wrap v) ↔
      p.isStructural = q.isStructural ∨ ¬ v.BeyondSigned := by
  rw [read?_wrap hp, read?_wrap hq, ← EntryId.decode?_eq_ofJson?_iff]
  cases p.isStructural <;> cases q.isStructural <;> simp [eq_comm]

end Position

/-! ## Declarations -/

/-- The value under a name of a record. -/
def Fields.at? (names : List String) (name : String) (w : Json) : Option Json :=
  (Fields.of? names w).bind (Json.find name)

/-- A field that must be there is decoded from the value under its name. -/
theorem Fields.of_required {α : Type} {names : List String} {name : String} {w v : Json}
    {fields : Fields} {decode : Json → Option α} {a : α} (hfields : of? names w = some fields)
    (hv : at? names name w = some v) (h : fields.required name decode = some a) :
    decode v = some a := by
  rw [at?, hfields, Option.bind_some] at hv
  rwa [required, hv, Option.bind_some] at h

theorem OperatorSpec.decode?_id {v w : Json} {spec : OperatorSpec} (h : decode? w = some spec)
    (hv : Fields.at? fieldNames "id" w = some v) : EntryId.decode? v = some spec.id := by
  simp only [decode?, bind, Option.bind_eq_some_iff] at h
  obtain ⟨fields, hfields, id, hid, _, -, _, -, _, -, _, -, _, -, _, -, _, -, _, -, _, -, _, -,
    h⟩ := h
  obtain rfl := Option.some.inj h
  exact Fields.of_required hfields hv hid

theorem StreamSpec.decode?_id {v w : Json} {spec : StreamSpec} (h : decode? w = some spec)
    (hv : Fields.at? fieldNames "id" w = some v) : EntryId.decode? v = some spec.id := by
  simp only [decode?, bind, Option.bind_eq_some_iff] at h
  obtain ⟨fields, hfields, id, hid, _, -, _, -, _, -, _, -, h⟩ := h
  obtain rfl := Option.some.inj h
  exact Fields.of_required hfields hv hid

/-- What declares an entry names it in every position. -/
theorem read?_of_declared {v : Json} {id : EntryId} (h : EntryId.decode? v = some id)
    (p : Position) : p.read? (p.wrap v) = some id := by
  have hname : EntryId.ofJson? v = some id := (EntryId.decode?_eq_some_iff.mp h).1
  have htakes : p.Takes v := by
    cases p with
    | source => rintro members rfl; exact nomatch h
    | _ => trivial
  rw [Position.read?_wrap htakes, h, hname, ite_self]

/-! ## Main result -/

/-- The two readers of names agree on a value exactly if it is no integer that fits an unsigned
64-bit word only: where an entry is declared or linked to, such an integer is refused. So two
positions read a value alike unless it is one and only one of them is structural. What declares an
operator or a stream names it in every other position too, and the text of a name will always do. -/
theorem positions_agree (v : Json) :
    (EntryId.decode? v = EntryId.ofJson? v ↔ ¬ v.BeyondSigned) ∧
      (∀ id, EntryId.decode? v = some id ↔ EntryId.ofJson? v = some id ∧ ¬ v.BeyondSigned) ∧
      (∀ p q : Position, p.Takes v → q.Takes v →
        (p.read? (p.wrap v) = q.read? (q.wrap v) ↔
          p.isStructural = q.isStructural ∨ ¬ v.BeyondSigned)) ∧
      (∀ w spec, OperatorSpec.decode? w = some spec →
        Fields.at? OperatorSpec.fieldNames "id" w = some v →
          ∀ p : Position, p.read? (p.wrap v) = some spec.id) ∧
      (∀ w spec, StreamSpec.decode? w = some spec →
        Fields.at? StreamSpec.fieldNames "id" w = some v →
          ∀ p : Position, p.read? (p.wrap v) = some spec.id) ∧
      ∀ id, EntryId.ofJson? v = some id →
        ∀ p : Position, p.read? (p.wrap (.string id.text)) = some id := by
  refine ⟨EntryId.decode?_eq_ofJson?_iff, fun id => EntryId.decode?_eq_some_iff, ?_, ?_, ?_, ?_⟩
  · intro p q hp hq
    exact Position.read?_eq_iff hp hq
  · intro w spec h hv
    exact read?_of_declared (OperatorSpec.decode?_id h hv)
  · intro w spec h hv
    exact read?_of_declared (StreamSpec.decode?_id h hv)
  · intro id _ p
    exact p.read?_text id

/-- At the limit of the signed words, a parameter may refer to an entry that no operator declares by
the same value. -/
theorem positions_agree_limit :
    leastUnsigned.BeyondSigned ∧ ¬ greatestSigned.BeyondSigned ∧
      Position.parameter.read? (Position.parameter.wrap leastUnsigned) ≠
        Position.operator.read? (Position.operator.wrap leastUnsigned) ∧
      Position.source.read? (Position.source.wrap greatestSigned) =
        Position.parent.read? (Position.parent.wrap greatestSigned) := by
  have hleast : leastUnsigned.BeyondSigned := ⟨_, _, rfl, by decide⟩
  have hgreatest : ¬ greatestSigned.BeyondSigned := by
    rintro ⟨n, fits, hn, hle⟩
    obtain rfl : _ = n := (Number.integer.inj (Json.number.inj hn))
    exact absurd hle (by decide)
  refine ⟨hleast, hgreatest, fun heq => ?_, ?_⟩
  · obtain hkind | hsigned := ((positions_agree leastUnsigned).2.2.1 .parameter .operator trivial
      trivial).mp heq
    · exact absurd hkind (by decide)
    · exact hsigned hleast
  · refine ((positions_agree greatestSigned).2.2.1 .source .parent ?_ trivial).mpr (.inr hgreatest)
    exact fun members h => nomatch h

end Dataflow
