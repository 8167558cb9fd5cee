import Dataflow.Json.Basic

/-! # Changesets

A changeset removes records from a node and then inserts others.  A removal takes away the
earliest record that is the same, if there is one. -/

namespace Dataflow

/-- The records to insert and the records to remove. -/
structure Changeset where
  inserted : List Json
  removed : List Json
deriving DecidableEq

namespace Changeset

/-- The changeset that changes nothing. -/
def empty : Changeset := ⟨[], []⟩

instance : EmptyCollection Changeset := ⟨empty⟩

/-- The records that a value stands for: the items of an array, or the value alone. -/
def recordsOf : Json → List Json
  | .array items => items
  | v => [v]

/-- Adds the records of a value to those to insert. -/
def insert (c : Changeset) (v : Json) : Changeset :=
  { c with inserted := c.inserted ++ recordsOf v }

/-- Adds the records of a value to those to remove. -/
def remove (c : Changeset) (v : Json) : Changeset :=
  { c with removed := c.removed ++ recordsOf v }

/-- Whether nothing is inserted or removed. -/
def isEmpty (c : Changeset) : Bool := c.inserted.isEmpty && c.removed.isEmpty

/-- Takes away the earliest record that is the same as `r`. -/
def removeFirst (records : List Json) (r : Json) : List Json :=
  records.eraseP fun held => held.same r

/-- The records after the change. -/
def apply (c : Changeset) (records : List Json) : List Json :=
  c.removed.foldl removeFirst records ++ c.inserted

end Changeset

end Dataflow
