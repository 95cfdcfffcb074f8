/-!
# Shortest decimals

The fewest decimal digits that read back as a given double, chosen by exact arithmetic. A double
stands for the interval of reals that round to it, ends included when its mantissa is even. For
one, two, … digits the two neighbours of the value on that decimal grid are tried: the first grid
with a neighbour inside the interval wins, of two neighbours the nearer, and of two equally near
the even one.
-/

namespace Gatehouse.Decimal

/-- A positive double, `mantissa * 2 ^ exponent`. -/
structure Binary where
  /-- The integer mantissa. -/
  mantissa : Nat
  /-- The power of two. -/
  exponent : Int
  /-- Whether the double below is only half as far away as the double above. -/
  narrowBelow : Bool
deriving DecidableEq, Repr

/-- The magnitude that the bits of a finite double stand for. -/
def Binary.ofBits (bits : UInt64) : Binary :=
  let e := ((bits >>> 52) &&& 0x7FF).toNat
  let f := (bits &&& 0xFFFFFFFFFFFFF).toNat
  if e = 0 then ⟨f, -1074, false⟩
  else ⟨0x10000000000000 + f, (e : Int) - 1075, f == 0 && 1 < e⟩

/-- A value and the ends of its interval as numerators over `10 ^ places`. -/
structure Scaled where
  /-- The value. -/
  value : Nat
  /-- The lower end. -/
  low : Nat
  /-- The upper end. -/
  high : Nat
  /-- Whether the ends belong to the interval. -/
  closed : Bool
  /-- The common number of decimal places. -/
  places : Nat

/-- The interval of a double in decimal. A quarter of a unit in the last place is a multiple of
both ends, and a negative power of two has as many decimal as binary places. -/
def Binary.scaled (b : Binary) : Scaled :=
  let places := (2 - b.exponent).toNat
  let unit := Nat.pow 2 (b.exponent - 2).toNat * Nat.pow 5 places
  { value := 4 * b.mantissa * unit
    low := (4 * b.mantissa - (if b.narrowBelow then 1 else 2)) * unit
    high := (4 * b.mantissa + 2) * unit
    closed := b.mantissa % 2 == 0
    places := places }

/-- Whether a numerator lies in the interval. -/
def Scaled.holds (s : Scaled) (n : Nat) : Bool :=
  if s.closed then s.low ≤ n && n ≤ s.high else s.low < n && n < s.high

/-- The multiple of `grid` in the interval that is nearest to the value, as its quotient. -/
def Scaled.nearest? (s : Scaled) (grid : Nat) : Option Nat :=
  let a := s.value / grid
  match s.holds (a * grid), s.holds ((a + 1) * grid) with
  | true, true =>
    if 2 * s.value < (2 * a + 1) * grid then some a
    else if (2 * a + 1) * grid < 2 * s.value then some (a + 1)
    else some (if a % 2 = 0 then a else a + 1)
  | true, false => some a
  | false, true => some (a + 1)
  | false, false => none

/-- The first grid `10 ^ k`, from coarse to fine, with a multiple in the interval: that multiple's
quotient and `k`. The finest grid holds the value itself. -/
def Scaled.search (s : Scaled) : Nat → Nat × Nat
  | 0 => (s.value, 0)
  | k + 1 =>
    match s.nearest? (Nat.pow 10 (k + 1)) with
    | some d => (d, k + 1)
    | none => s.search k

/-- Decimal digits with the place of the point: the value is `d.ddd * 10 ^ exponent`. -/
structure Figure where
  /-- The digits, the first and the last not zero. -/
  digits : List Char
  /-- The power of ten of the first digit. -/
  exponent : Int
deriving DecidableEq, Repr

/-- A list of digits without the zeros at its end. -/
def stripZeros (ds : List Char) : List Char :=
  (ds.reverse.dropWhile (· == '0')).reverse

/-- The shortest figure that reads back as a positive double. -/
def Binary.shortest (b : Binary) : Figure :=
  let s := b.scaled
  let r := s.search ((Nat.toDigits 10 s.value).length - 1)
  let ds := Nat.toDigits 10 r.1
  { digits := stripZeros ds
    exponent := (ds.length : Int) - 1 + r.2 - s.places }

end Gatehouse.Decimal
