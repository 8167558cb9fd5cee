import Dataflow.Json.Basic
import Dataflow.Table

/-! # Transforms

A `Transform` is a named behavior of a node.  The graph does not run transforms; a registry says
which kinds of operators name one, and what else is known about it. -/

namespace Dataflow

/-- A named behavior, with anything else that is known about it. -/
structure Transform where
  name : String
  /-- Free-form notes, null when there are none. -/
  metadata : Json
deriving DecidableEq

namespace Transform

/-- A transform as JSON; notes that are null are left out. -/
def toJson (t : Transform) : Json :=
  match t.metadata with
  | .null => .object [("name", .string t.name)]
  | notes => .object [("name", .string t.name), ("metadata", notes)]

end Transform

/-- The known transforms, by name. -/
abbrev Registry := Table String Transform

namespace Registry

/-- Adds a transform, in the place of one with the same name. -/
def register (registry : Registry) (t : Transform) : Registry := registry.insert t.name t

/-- The registry of a list of transforms. -/
def ofList (transforms : List Transform) : Registry := transforms.foldl register .empty

/-- Transforms that hold data, with a mark that says so. -/
def sources : List Transform := [⟨"Collect", .object [("source", .bool true)]⟩]

/-- Transforms that take a nested specification, with a mark that says so. -/
def nesting : List Transform :=
  ["Facet", "PreFacet"].map fun name => ⟨name, .object [("subflow", .bool true)]⟩

/-- The remaining transforms. -/
def unmarked : List Transform :=
  ["Filter", "Aggregate", "Project", "Sieve", "Extent", "Field", "Compare", "Values", "Bin",
    "Stack", "Pie", "Lookup"].map fun name => ⟨name, .null⟩

/-- The transforms of the standard registry. -/
def standard : Registry := ofList (sources ++ nesting ++ unmarked)

end Registry

end Dataflow
