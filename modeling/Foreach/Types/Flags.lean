/-!
# Flags of types and members

What is true of a type or a member independently of the rest of the registry. Flags have a fixed
order, and the bits of a set of flags are the powers of two at the positions of those that are set.
-/
namespace Foreach

/-- The number whose binary digits, the lowest first, are the given truth values. -/
def bitsOf : List Bool → Nat
  | [] => 0
  | set :: rest => (if set then 1 else 0) + 2 * bitsOf rest

/-- The names of the truth values that hold. -/
def namesOf (named : List (String × Bool)) : List String :=
  (named.filter Prod.snd).map Prod.fst

/-- The flags of a type. -/
structure TypeFlags where
  /-- Values are copied and never null. -/
  valueType : Bool := false
  /-- Values live on the stack alone, so they are never converted to an interface. -/
  byRefLike : Bool := false
  /-- The type is a contract. -/
  isInterface : Bool := false
  /-- The type is built in. -/
  isPrimitive : Bool := false
  /-- The type has parameters that instances replace by arguments. -/
  genericDefinition : Bool := false
  /-- The type is a generic definition at given arguments. -/
  genericInstance : Bool := false
  /-- The type stands for an argument not given yet. -/
  genericParameter : Bool := false
  /-- The type has no values of its own. -/
  isAbstract : Bool := false
deriving DecidableEq

namespace TypeFlags

/-- The flags with their names, in order. -/
def named (flags : TypeFlags) : List (String × Bool) :=
  [("VALUE_TYPE", flags.valueType), ("BY_REF_LIKE", flags.byRefLike),
    ("INTERFACE", flags.isInterface), ("PRIMITIVE", flags.isPrimitive),
    ("GENERIC_DEFINITION", flags.genericDefinition), ("GENERIC_INSTANCE", flags.genericInstance),
    ("GENERIC_PARAM", flags.genericParameter), ("ABSTRACT", flags.isAbstract)]

/-- The bits of the flags. -/
def bits (flags : TypeFlags) : Nat := bitsOf (flags.named.map Prod.snd)

/-- The names of the flags that are set. -/
def names (flags : TypeFlags) : List String := namesOf flags.named

/-- The flags of a number of bits; further bits mean nothing. -/
def ofBits (bits : Nat) : TypeFlags where
  valueType := bits.testBit 0
  byRefLike := bits.testBit 1
  isInterface := bits.testBit 2
  isPrimitive := bits.testBit 3
  genericDefinition := bits.testBit 4
  genericInstance := bits.testBit 5
  genericParameter := bits.testBit 6
  isAbstract := bits.testBit 7

/-- The flags of an instance: those of its definition, except that it is an instance. -/
def forInstance (flags : TypeFlags) : TypeFlags :=
  { flags with genericDefinition := false, genericInstance := true }

/-- Flags are read back from their bits. -/
theorem ofBits_bits (flags : TypeFlags) : ofBits flags.bits = flags := by
  obtain ⟨a, b, c, d, e, f, g, h⟩ := flags
  cases a <;> cases b <;> cases c <;> cases d <;> cases e <;> cases f <;> cases g <;> cases h <;>
    rfl

end TypeFlags

/-- The flags of a member. -/
structure MemberFlags where
  /-- The member is visible everywhere. -/
  isPublic : Bool := false
  /-- The member belongs to the type and not to its values. -/
  isStatic : Bool := false
  /-- The member serves one interface member and nothing else. -/
  isExplicit : Bool := false
  /-- The property can be read. -/
  hasGetter : Bool := false
deriving DecidableEq

namespace MemberFlags

/-- The flags with their names, in order. -/
def named (flags : MemberFlags) : List (String × Bool) :=
  [("PUBLIC", flags.isPublic), ("STATIC", flags.isStatic), ("EXPLICIT", flags.isExplicit),
    ("HAS_GETTER", flags.hasGetter)]

/-- The bits of the flags. -/
def bits (flags : MemberFlags) : Nat := bitsOf (flags.named.map Prod.snd)

/-- The names of the flags that are set. -/
def names (flags : MemberFlags) : List String := namesOf flags.named

/-- The flags of a number of bits; further bits mean nothing. -/
def ofBits (bits : Nat) : MemberFlags where
  isPublic := bits.testBit 0
  isStatic := bits.testBit 1
  isExplicit := bits.testBit 2
  hasGetter := bits.testBit 3

/-- Whether a member can be found by its name on a value: it is public, and neither static nor
explicit. -/
def isPublicInstance (flags : MemberFlags) : Bool :=
  flags.isPublic && !flags.isStatic && !flags.isExplicit

/-- Flags are read back from their bits. -/
theorem ofBits_bits (flags : MemberFlags) : ofBits flags.bits = flags := by
  obtain ⟨a, b, c, d⟩ := flags
  cases a <;> cases b <;> cases c <;> cases d <;> rfl

end MemberFlags

end Foreach
