/-!
# Pools

A pool counts the slots that are taken out of a fixed number of slots. It never waits: taking a
slot of a full pool fails at once and leaves the pool as it was.
-/

namespace Gatehouse

/-- A pool of slots. Every pool is built by `Pool.ofCapacity`, `Pool.acquire?` and `Pool.release`,
which keep `active` within `capacity`. -/
structure Pool where
  /-- How many slots there are. -/
  capacity : UInt64
  /-- How many of them are taken. -/
  active : UInt64
deriving DecidableEq, Repr

namespace Pool

/-- How many slots a pool has when nothing is said about it. -/
def standardCapacity : UInt64 := 5

/-- An unused pool of so many slots. There is always at least one. -/
def ofCapacity (capacity : UInt64) : Pool :=
  ⟨if capacity = 0 then 1 else capacity, 0⟩

/-- The pool with one more slot taken, unless every slot is. -/
def acquire? (p : Pool) : Option Pool :=
  if p.capacity ≤ p.active then none else some { p with active := p.active + 1 }

/-- The pool with one slot given back, or as it is when none is taken. -/
def release (p : Pool) : Pool :=
  if 0 < p.active then { p with active := p.active - 1 } else p

/-- How many slots are free. -/
def available (p : Pool) : UInt64 :=
  p.capacity - p.active

end Pool

end Gatehouse
