/-!
# Whole numbers in decimal

Reading a whole number that must fit a given bound. The grammar is an optional plus sign and at
least one ASCII digit; leading zeros are allowed, a minus sign is not, even before a zero.
-/

namespace Gatehouse.Decimal

/-- The value of an ASCII digit. -/
def digit? (c : Char) : Option Nat :=
  if '0' ≤ c ∧ c ≤ '9' then some (c.toNat - '0'.toNat) else none

/-- The value of a run of digits after a part whose value is `acc`. -/
def digits? (acc : Nat) : List Char → Option Nat
  | [] => some acc
  | c :: cs => (digit? c).bind fun d => digits? (acc * 10 + d) cs

/-- The value of a text of at least one digit. -/
def natural? : List Char → Option Nat
  | [] => none
  | c :: cs => digits? 0 (c :: cs)

/-- The value of an optionally signed text of digits. -/
def unsigned? : List Char → Option Nat
  | '+' :: cs => natural? cs
  | cs => natural? cs

/-- The value of a text in the grammar of whole numbers, if it lies below `bound`. -/
def below? (bound : Nat) (s : String) : Option Nat :=
  (unsigned? s.toList).filter (· < bound)

end Gatehouse.Decimal
