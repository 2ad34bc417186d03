/-!
# Decimal numbers

Reading of whole numbers from their decimal digits. A number is one digit or more; leading zeros
count for nothing. A signed number may start with one sign of either kind, an unsigned one with a
plus alone, and a number outside its range is not read.
-/
namespace Foreach.Text

/-- The value of a decimal digit. -/
def digit? (c : Char) : Option Nat :=
  if '0' ≤ c ∧ c ≤ '9' then some (c.toNat - '0'.toNat) else none

/-- The value of digits, the most significant first, after those already read. -/
def digitsValue? (read : Nat) : List Char → Option Nat
  | [] => some read
  | c :: rest => (digit? c).bind fun digit => digitsValue? (10 * read + digit) rest

/-- The value of one digit or more. -/
def natural? : List Char → Option Nat
  | [] => none
  | c :: rest => digitsValue? 0 (c :: rest)

/-- A number of spaces or of elements: unsigned, of at most 64 bits. -/
def readSize? (text : String) : Option Nat :=
  let unsigned := match text.toList with
    | '+' :: rest => natural? rest
    | characters => natural? characters
  unsigned.filter (· < UInt64.size)

/-- A signed number of at most 64 bits. -/
def readInteger? (text : String) : Option Int64 :=
  let signed := match text.toList with
    | '-' :: rest => (natural? rest).map fun size => -(size : Int)
    | '+' :: rest => (natural? rest).map fun size => (size : Int)
    | characters => (natural? characters).map fun size => (size : Int)
  let inRange := signed.filter fun value =>
    Int64.minValue.toInt ≤ value && value ≤ Int64.maxValue.toInt
  inRange.map Int64.ofInt

/-- The digits of a number, with a minus in front of a negative one. -/
def writeInteger (value : Int64) : String := toString value.toInt

end Foreach.Text
