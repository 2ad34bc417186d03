import Foreach.Evaluation.Heap

/-!
# Native bodies

The registry says what members there are; what a method does, or what a property gives, is a body
for the member that declares it. A body works on the heap, with the value it is called on and the
arguments. Interface members usually have none, because calls of them reach the members that
implement them.
-/
namespace Foreach

/-- What a member does, from the value it is called on and the arguments. -/
abbrev NativeBody := Value → List Value → HeapAction Value

/-- The bodies of members, at most one for each. -/
structure Natives where
  /-- The bodies, the one given last first. -/
  bodies : List (MemberId × NativeBody)

namespace Natives

/-- No bodies. -/
def empty : Natives := ⟨[]⟩

/-- Give a member a body, in place of one it may have. -/
def define (natives : Natives) (member : MemberId) (body : NativeBody) : Natives :=
  ⟨(member, body) :: natives.bodies.filter fun entry => entry.1 ≠ member⟩

/-- The body of a member. -/
def body? (natives : Natives) (member : MemberId) : Option NativeBody :=
  (natives.bodies.find? fun entry => entry.1 = member).map Prod.snd

/-- Whether a member has a body. -/
def contains (natives : Natives) (member : MemberId) : Bool := (natives.body? member).isSome

/-- The number of members with a body. -/
def size (natives : Natives) : Nat := natives.bodies.length

/-- Whether no member has a body. -/
def isEmpty (natives : Natives) : Bool := natives.bodies.isEmpty

/-- The members with a body in the order of their handles, as text. -/
def describe (natives : Natives) : String :=
  let members := (natives.bodies.map fun entry => entry.1.index).mergeSort
  let listed := ", ".intercalate (members.map fun index => (MemberId.mk index).describe)
  "NativeMethods \x7b members: [" ++ listed ++ "] \x7d"

/-- The body given last is the body of its member. -/
theorem body?_define_self (natives : Natives) (member : MemberId) (body : NativeBody) :
    (natives.define member body).body? member = some body := by
  simp [define, body?]

/-- Giving a member a body leaves the bodies of others. -/
theorem body?_define_of_ne (natives : Natives) {member other : MemberId} (body : NativeBody)
    (different : other ≠ member) :
    (natives.define member body).body? other = natives.body? other := by
  simp only [define, body?, List.find?_cons, Ne.symm different, decide_false, List.find?_filter]
  congr 2
  funext entry
  by_cases same : entry.1 = other <;> simp [same, different]

end Natives

end Foreach
