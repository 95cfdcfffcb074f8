/-!
# The calendar

Points in time and spans of time. Time is counted from the start of 1970 in days of equal length.
The calendar has an end: a point in time lies in one of the years from -262143 to 262142, and a span
has no more milliseconds than 63 bits can count. Arithmetic that would leave these bounds gives
nothing.
-/

namespace Gatehouse

namespace Calendar

/-- How many days more than 365 each the years before a year had: one in every fourth year, and of
the full centuries in every fourth. -/
def leapDays (year : Int) : Int :=
  (year - 1) / 4 - (year - 1) / 100 + (year - 1) / 400

/-- The second at which a year starts. -/
def startOfYear (year : Int) : Int :=
  86400 * (365 * (year - 1970) + (leapDays year - leapDays 1970))

/-- The first second. -/
def first : Int := startOfYear (-262143)

/-- The second behind the last one. -/
def limit : Int := startOfYear 262143

theorem first_eq : first = -8334601228800 := by decide

theorem limit_eq : limit = 8210266876800 := by decide

end Calendar

/-- A span of whole seconds. -/
structure Span where
  seconds : Int64
  bounded : 1000 * seconds.toInt.natAbs ≤ 0x7FFFFFFFFFFFFFFF

namespace Span

/-- So many hours, in seconds. The product is exact where its milliseconds can be counted. -/
theorem toInt_hours {hours : Int64}
    (h : 1000 * (hours.toInt * 3600).natAbs ≤ 0x7FFFFFFFFFFFFFFF) :
    (hours * 3600).toInt = hours.toInt * 3600 := by
  have hunit : (3600 : Int64).toInt = 3600 := by decide
  rw [Int64.toInt_mul, hunit, Int.bmod_eq_of_le (by omega) (by omega)]

/-- The span of so many hours. -/
def ofHours? (hours : Int64) : Option Span :=
  if h : 1000 * (hours.toInt * 3600).natAbs ≤ 0x7FFFFFFFFFFFFFFF then
    some ⟨hours * 3600, by rw [toInt_hours h]; exact h⟩
  else none

end Span

/-- A point in time. -/
structure Instant where
  /-- The whole seconds that have passed. -/
  second : Int64
  /-- The nanoseconds that have passed since. -/
  nano : UInt32
  nano_lt : nano.toNat < 1000000000
  first_le : Calendar.first ≤ second.toInt
  lt_limit : second.toInt < Calendar.limit

namespace Instant

theorem toInt_ofInt {second : Int} (h : Calendar.first ≤ second ∧ second < Calendar.limit) :
    (Int64.ofInt second).toInt = second := by
  rw [Calendar.first_eq, Calendar.limit_eq] at h
  exact Int64.toInt_ofInt_of_le (by omega) (by omega)

/-- The start of a second. -/
def ofSecond? (second : Int) : Option Instant :=
  if h : Calendar.first ≤ second ∧ second < Calendar.limit then
    some {
      second := Int64.ofInt second
      nano := 0
      nano_lt := by decide
      first_le := by rw [toInt_ofInt h]; exact h.1
      lt_limit := by rw [toInt_ofInt h]; exact h.2 }
  else none

/-- The point in time that is a span later. -/
def add? (t : Instant) (s : Span) : Option Instant :=
  let second := t.second + s.seconds
  if h : Calendar.first ≤ second.toInt ∧ second.toInt < Calendar.limit then
    some { t with second := second, first_le := h.1, lt_limit := h.2 }
  else none

end Instant

end Gatehouse
