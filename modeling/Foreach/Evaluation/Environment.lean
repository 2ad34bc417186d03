import Foreach.Evaluation.Value
import Foreach.Handle

/-!
# Scopes of bindings

Bindings have their values in scopes, one inside the other. A binding is known by its node, so
bindings of one name in different blocks are never confused. A declared binding has no value until
it is assigned one. Reading and assigning reach the innermost scope that declares the binding.

There is always an outermost scope, and it is never left.
-/
namespace Foreach

/-- The bindings declared together, with the values of those that have one. -/
abbrev Scope := List (NodeId × Option Value)

namespace Scope

/-- What is known of a binding: nothing, that it is declared, or its value. -/
def find? (scope : Scope) (binding : NodeId) : Option (Option Value) :=
  (List.find? (fun entry => entry.1 = binding) scope).map Prod.snd

/-- Whether a binding is declared. -/
def declares (scope : Scope) (binding : NodeId) : Bool := (scope.find? binding).isSome

/-- Declare a binding, with or without a value, in place of what was known of it. -/
def put (binding : NodeId) (value : Option Value) : Scope → Scope
  | [] => [(binding, value)]
  | entry :: rest =>
    if entry.1 = binding then (binding, value) :: rest else entry :: put binding value rest

/-- A binding is known as it was declared last. -/
@[simp] theorem find?_put_self (scope : Scope) (binding : NodeId) (value : Option Value) :
    (scope.put binding value).find? binding = some value := by
  induction scope with
  | nil => simp [put, find?]
  | cons entry rest ih =>
    by_cases same : entry.1 = binding
    · simp [put, find?, same]
    · simp only [find?] at ih
      simp [put, find?, same, ih]

/-- Declaring a binding leaves what is known of others. -/
theorem find?_put_of_ne (scope : Scope) {binding other : NodeId} (value : Option Value)
    (different : other ≠ binding) :
    (scope.put binding value).find? other = scope.find? other := by
  induction scope with
  | nil => simp [put, find?, Ne.symm different]
  | cons entry rest ih =>
    simp only [find?] at ih
    by_cases same : entry.1 = binding
    · simp [put, find?, same, Ne.symm different]
    · rw [put, if_neg same]
      by_cases hit : entry.1 = other <;> simp [find?, hit, ih]

end Scope

/-- Why a binding cannot be read or assigned. -/
inductive BindingError where
  /-- It has no value. -/
  | unassigned
  /-- No scope declares it. -/
  | undeclared
deriving DecidableEq

/-- The scopes that can be seen. -/
structure Environment where
  /-- The innermost scope. -/
  current : Scope
  /-- The scopes around it, from the inside outwards. -/
  enclosing : List Scope
deriving DecidableEq

namespace Environment

/-- One scope with no bindings. -/
def empty : Environment := ⟨[], []⟩

/-- All scopes, from the inside outwards. -/
def scopes (environment : Environment) : List Scope :=
  environment.current :: environment.enclosing

/-- The number of scopes. -/
def depth (environment : Environment) : Nat := environment.scopes.length

/-- Enter a scope with no bindings. -/
def push (environment : Environment) : Environment := ⟨[], environment.scopes⟩

/-- Leave the innermost scope, unless it is the only one. -/
def pop (environment : Environment) : Environment :=
  match environment.enclosing with
  | [] => environment
  | next :: rest => ⟨next, rest⟩

/-- Declare a binding without a value in the innermost scope. -/
def declare (environment : Environment) (binding : NodeId) : Environment :=
  { environment with current := environment.current.put binding none }

/-- Declare a binding with a value in the innermost scope. -/
def define (environment : Environment) (binding : NodeId) (value : Value) : Environment :=
  { environment with current := environment.current.put binding (some value) }

/-- The value of a binding. -/
def lookup (environment : Environment) (binding : NodeId) : Except BindingError Value :=
  match environment.scopes.findSome? fun scope => scope.find? binding with
  | none => .error .undeclared
  | some none => .error .unassigned
  | some (some value) => .ok value

/-- Assign to a binding in the first of some scopes that declares it. -/
def assignIn (binding : NodeId) (value : Value) : List Scope → Option (List Scope)
  | [] => none
  | scope :: rest =>
    if scope.declares binding then some (scope.put binding (some value) :: rest)
    else (assignIn binding value rest).map (scope :: ·)

/-- Assign to a binding in the innermost scope that declares it. -/
def assign (environment : Environment) (binding : NodeId) (value : Value) :
    Except BindingError Environment :=
  if environment.current.declares binding then .ok (environment.define binding value)
  else match assignIn binding value environment.enclosing with
    | some enclosing => .ok { environment with enclosing }
    | none => .error .undeclared

/-- A binding has the value that it was defined with last. -/
@[simp] theorem lookup_define_self (environment : Environment) (binding : NodeId)
    (value : Value) : (environment.define binding value).lookup binding = .ok value := by
  simp [define, lookup, scopes]

/-- A binding that was just declared has no value. -/
@[simp] theorem lookup_declare_self (environment : Environment) (binding : NodeId) :
    (environment.declare binding).lookup binding = .error .unassigned := by
  simp [declare, lookup, scopes]

/-- Defining a binding leaves the values of others. -/
theorem lookup_define_of_ne (environment : Environment) {binding other : NodeId}
    (value : Value) (different : other ≠ binding) :
    (environment.define binding value).lookup other = environment.lookup other := by
  simp only [define, lookup, scopes, List.findSome?_cons, Scope.find?_put_of_ne _ _ different]

/-- A scope that was entered is left again. -/
@[simp] theorem pop_push (environment : Environment) : environment.push.pop = environment := rfl

end Environment

end Foreach
