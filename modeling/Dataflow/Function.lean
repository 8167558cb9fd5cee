import Dataflow.CompileError
import Dataflow.Expr.Eval
import Dataflow.Json.Order

/-! # Functions over records

An `Accessor` maps a record to a value: it follows a path or evaluates an expression.  A
`Comparator` orders records by the values at several paths, each in its own direction.

Functions are shared, and sharing can be observed: every function has the serial number it was
made with, and two are the same instance exactly when their serial numbers agree.  `MemoKey` is
what a shared function is looked up by. -/

namespace Dataflow

/-! ## Accessors -/

/-- What an accessor computes. -/
inductive Accessor.Body where
  | path (segments : List String)
  | expression (e : Expr) (library : Option Binding)

/-- A function from a record to a value. -/
structure Accessor where
  serial : Nat
  name : Option String
  /-- The fields it is declared to read. -/
  fields : List String
  body : Accessor.Body

namespace Accessor

/-- The value on a record. -/
def call (f : Accessor) (datum : Json) : Json :=
  match f.body with
  | .path segments => datum.follow segments
  | .expression e library => e.eval library datum

/-- The accessor of a field; its name is the path unless another is given. -/
def ofField (serial : Nat) (path : String) (name : Option String) :
    Except CompileError Accessor :=
  match FieldPath.split path with
  | .ok segments => .ok ⟨serial, some (name.getD path), [path], .path segments⟩
  | .error e => .error (.fieldPath path e)

/-- The accessor of an expression in a scope with the given library. -/
def ofExpression (serial : Nat) (text : String) (fields : List String) (name : Option String)
    (library : Option Binding) : Except CompileError Accessor :=
  match Expr.compile text library with
  | .ok e => .ok ⟨serial, name, fields, .expression e library⟩
  | .error e => .error (.expression text e)

end Accessor

/-! ## Comparators -/

/-- The direction of an order. -/
inductive Direction where
  | ascending
  | descending
deriving DecidableEq, Repr

namespace Direction

/-- The name of a direction. -/
def text : Direction → String
  | .ascending => "ascending"
  | .descending => "descending"

/-- The direction of a name. -/
def ofText? : String → Option Direction
  | "ascending" => some .ascending
  | "descending" => some .descending
  | _ => none

/-- An order seen in a direction. -/
def apply : Direction → Ordering → Ordering
  | .ascending, o => o
  | .descending, o => o.swap

end Direction

/-- A field to sort by. -/
structure SortKey where
  path : String
  segments : List String
  direction : Direction

namespace SortKey

/-- The order of two records by one field. -/
def compare (key : SortKey) (a b : Json) : Ordering :=
  key.direction.apply ((a.follow key.segments).compareValues (b.follow key.segments))

/-- The key of a field. -/
def ofField (path : String) (direction : Direction) : Except CompileError SortKey :=
  match FieldPath.split path with
  | .ok segments => .ok ⟨path, segments, direction⟩
  | .error e => .error (.fieldPath path e)

/-- The keys of several fields; directions that are missing are ascending. -/
def ofFields : List String → List Direction → Except CompileError (List SortKey)
  | [], _ => .ok []
  | path :: paths, directions => do
    let key ← ofField path (directions.head?.getD .ascending)
    let keys ← ofFields paths directions.tail
    return key :: keys

end SortKey

/-- An order of records by several fields, the first that differs deciding. -/
structure Comparator where
  serial : Nat
  keys : List SortKey

namespace Comparator

/-- The order of two records by a list of keys. -/
def compareBy : List SortKey → Json → Json → Ordering
  | [], _, _ => .eq
  | key :: keys, a, b => (key.compare a b).then (compareBy keys a b)

/-- The order of two records. -/
def compare (c : Comparator) (a b : Json) : Ordering := compareBy c.keys a b

/-- The paths, in the order in which they decide. -/
def fields (c : Comparator) : List String := c.keys.map SortKey.path

/-- The direction of each path. -/
def directions (c : Comparator) : List Direction := c.keys.map SortKey.direction

/-- The comparator of several fields. -/
def ofFields (serial : Nat) (fields : List String) (directions : List Direction) :
    Except CompileError Comparator :=
  (SortKey.ofFields fields directions).map fun keys => ⟨serial, keys⟩

end Comparator

/-! ## Shared functions -/

/-- What a shared function is looked up by. -/
inductive MemoKey where
  | expression (text : String)
  | field (path : String) (name : Option String)
  | compare (fields : List String) (directions : List Direction)
deriving DecidableEq

/-- A shared function. -/
inductive Function where
  | accessor (f : Accessor)
  | comparator (c : Comparator)

/-- The instance that a function is. -/
def Function.serial : Function → Nat
  | .accessor f => f.serial
  | .comparator c => c.serial

end Dataflow
