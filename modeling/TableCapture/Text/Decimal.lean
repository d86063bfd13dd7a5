/-!
# Decimal numbers

`Decimal.nat?` reads one or more ASCII digits, `Decimal.int?` the same after at most one sign.
Leading zeros are allowed, and the number read is the exact one, of whatever size.
-/

namespace TableCapture.Decimal

/-- The number that a non-empty run of ASCII digits writes. -/
def nat? (cs : List Char) : Option Nat :=
  if cs ≠ [] ∧ cs.all Char.isDigit then some (Nat.ofDigitChars 10 cs 0) else none

/-- The number that digits after at most one `+` or `-` write. -/
def int? : List Char → Option Int
  | '+' :: cs => (nat? cs).map Int.ofNat
  | '-' :: cs => (nat? cs).map fun n => -(n : Int)
  | cs => (nat? cs).map Int.ofNat

/-- The least signed word of 64 bits. -/
def minInt64 : Int := -9223372036854775808

/-- The greatest signed word of 64 bits. -/
def maxInt64 : Int := 9223372036854775807

/-- The greatest unsigned word of 64 bits. -/
def maxUInt64 : Nat := 18446744073709551615

/-- A signed integer of 64 bits: a number outside the range is not read. -/
def int64? (cs : List Char) : Option Int :=
  (int? cs).filter fun v => minInt64 ≤ v ∧ v ≤ maxInt64

/-- An unsigned integer of 64 bits, written with digits alone. -/
def uint64? (cs : List Char) : Option Nat :=
  (nat? cs).filter (· ≤ maxUInt64)

end TableCapture.Decimal
