import Dataflow.Expr.Value

/-! # Initial data

The value of an operator that collects says where its first records come from: `$ingest` gives
them in bulk, `$request` names a resource to fetch, and any other value is the records
themselves.  A marker whose value is null, false, zero or empty counts as absent. -/

namespace Dataflow

/-- Where initial data comes from. -/
inductive DataLoad where
  | ingest (data : Json) (format : Option Json)
  | request (resource : Json) (format : Option Json)
  | inline (records : Json)
deriving DecidableEq

namespace DataLoad

/-- The value under a marker, unless it counts as absent. -/
def marked? (key : String) (v : Json) : Option Json := (v.get? key).filter Json.truthy

/-- The format under `$format`, unless it is null. -/
def format? (v : Json) : Option Json := (v.get? "$format").filter (· != .null)

/-- The load that a value asks for: bulk data before a resource before the value itself. -/
def select (v : Json) : DataLoad :=
  match marked? "$ingest" v with
  | some data => .ingest data (format? v)
  | none =>
    match marked? "$request" v with
    | some resource => .request resource (format? v)
    | none => .inline v

end DataLoad

end Dataflow
