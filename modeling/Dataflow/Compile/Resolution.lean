import Dataflow.Compile.Session
import Dataflow.Reference

/-! # Resolving references

A value of a specification resolves to a parameter: a reference to what it refers to, any other
value to itself, and an array item by item.  Functions are shared: one that was made for the same
key in the scope or above it is used again.

A set of parameters is resolved in order into what has been resolved before.  An expression brings
parameters of its own, which are resolved just before it and become its siblings; of two
parameters with one name the later counts. -/

namespace Dataflow

/-! ## Sizes -/

theorem Json.sizeOf_find_lt {key : String} {members : List (String × Json)} {v : Json}
    (h : Json.find key members = some v) : sizeOf v < sizeOf members := by
  induction members with
  | nil => simp [Json.find] at h
  | cons m rest ih =>
    obtain ⟨k, w⟩ := m
    unfold Json.find at h
    split at h
    · cases h
      simp only [List.cons.sizeOf_spec, Prod.mk.sizeOf_spec]
      omega
    · have := ih h
      simp only [List.cons.sizeOf_spec, Prod.mk.sizeOf_spec]
      omega

/-- The parameters that a value brings along are smaller than the value. -/
theorem sizeOf_expressionParams_lt {v : Json} {params : List (String × Json)}
    (h : expressionParams? v = some params) : sizeOf params < sizeOf v := by
  unfold expressionParams? at h
  split at h
  · next hp =>
    cases h
    cases v with
    | object members =>
      have := Json.sizeOf_find_lt hp
      simp only [Json.object.sizeOf_spec] at this ⊢
      omega
    | _ => simp [Json.get?] at hp
  · cases h

namespace Compile

/-! ## Functions -/

/-- The function for a key: a shared one if there is one, else a new one, which is shared from now
on. -/
def shared (scope : ScopeId) (key : MemoKey) (make : Nat → Except CompileError Function) :
    Compile Function := do
  match (← get).scopes.function? scope key with
  | some f => return f
  | none =>
    let f ← MonadExcept.ofExcept (make (← freshSerial))
    write (·.setFunction scope key f)
    return f

end Compile

/-- A shared function as a parameter. -/
def Parameter.ofFunction : Function → Parameter
  | .accessor f => .accessor f
  | .comparator c => .comparator c

namespace Compile

/-! ## Values -/

/-- What a reference refers to. -/
def resolveReference (scope : ScopeId) : Reference → Compile Parameter
  | .operator id => return .operator (← node scope id)
  | .expression e => do
    let library := (← get).scopes.library? scope
    return .ofFunction (← shared scope (.expression e.text) fun serial =>
      (Accessor.ofExpression serial e.text e.fields e.name library).map .accessor)
  | .field path name =>
    return .ofFunction (← shared scope (.field path name) fun serial =>
      (Accessor.ofField serial path name).map .accessor)
  | .compare fields directions =>
    return .ofFunction (← shared scope (.compare fields directions) fun serial =>
      (Comparator.ofFields serial fields directions).map .comparator)
  | .subflow spec => return .subflow ⟨spec, scope⟩

/-- What a value stands for, arrays standing for themselves. -/
def resolveOne (scope : ScopeId) (v : Json) : Compile Parameter := do
  match ← MonadExcept.ofExcept (Reference.decode v) with
  | some r => resolveReference scope r
  | none => return .literal v

/-- What a value stands for. -/
def resolve (scope : ScopeId) : Json → Compile Parameter
  | .array items => return .array (← items.mapM (resolveOne scope))
  | v => resolveOne scope v

/-- Resolves parameters in order into what has been resolved before. -/
def resolveInto (scope : ScopeId) (params : Parameters) :
    List (String × Json) → Compile Parameters
  | [] => return params
  | (name, v) :: rest =>
    let brought : Compile Parameters :=
      match _h : expressionParams? v with
      | some nested => resolveInto scope params nested
      | none => return params
    do
      let params ← brought
      let p ← resolve scope v
      resolveInto scope (params.insert name p) rest
termination_by members => sizeOf members
decreasing_by
  · have := sizeOf_expressionParams_lt _h
    simp only [List.cons.sizeOf_spec, Prod.mk.sizeOf_spec]
    omega
  · simp only [List.cons.sizeOf_spec, Prod.mk.sizeOf_spec]
    omega

/-- Resolves the parameters that a value brings along. -/
def resolveBrought (scope : ScopeId) (params : Parameters) (v : Json) : Compile Parameters :=
  match expressionParams? v with
  | some nested => resolveInto scope params nested
  | none => return params

/-- Resolves a value that must be a function, and the parameters that it brings along. -/
def resolveFunction (scope : ScopeId) (role : Role) (params : Parameters) (v : Json) :
    Compile (Accessor × Parameters) := do
  let params ← resolveBrought scope params v
  match ← resolveOne scope v with
  | .accessor f => return (f, params)
  | _ => throw (.malformedReference (.notFunction role))

end Compile

end Dataflow
