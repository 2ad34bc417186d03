/-!
# Checked results

An operation of this library may be called with arguments that its caller had no right to use:
a handle nobody registered, a node of the wrong kind, a list longer than a list may be. It may
also be given a bound on nested or repeated work that the work exceeds. Neither is a result of
the domain, so neither is an error value of the domain: both end the operation with a `Stop`,
and the two are never confused. Results of the domain, its errors included, are what a `Checked`
operation returns.
-/
namespace Foreach

/-- Why an operation ended without a result. -/
inductive Stop where
  /-- The caller broke a precondition. -/
  | violation
  /-- The work exceeded the bound it was given. -/
  | exhausted
deriving DecidableEq

/-- A result, or the reason why there is none. -/
abbrev Checked (α : Type) := Except Stop α

namespace Checked

/-- A present value; an absent one is a broken precondition. -/
def ofOption {α : Type} : Option α → Checked α
  | some value => .ok value
  | none => .error .violation

/-- A precondition that has to hold. -/
def require (condition : Bool) : Checked Unit :=
  if condition then .ok () else .error .violation

/-- A present value is its own result. -/
@[simp] theorem ofOption_some {α : Type} (value : α) : ofOption (some value) = .ok value := rfl

/-- An absent value is a broken precondition. -/
@[simp] theorem ofOption_none {α : Type} : (ofOption none : Checked α) = .error .violation := rfl

/-- A value is obtained exactly when it is present. -/
theorem ofOption_eq_ok {α : Type} {found : Option α} {value : α} :
    ofOption found = .ok value ↔ found = some value := by
  cases found <;> simp [ofOption]

/-- A precondition is met exactly when it holds. -/
theorem require_eq_ok {condition : Bool} : require condition = .ok () ↔ condition = true := by
  cases condition <;> simp [require]

end Checked

end Foreach
