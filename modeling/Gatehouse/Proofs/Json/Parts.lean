import Gatehouse.Json.Parser
import Gatehouse.Proofs.Dictionary

/-!
# What is inside a value

`Value.Everywhere` says of a value and of every value inside it that something holds, and
`Value.Within` how deep its lists and objects are nested. A value is proper if its objects have
their keys in ascending order and its negative numbers are below zero, which no other JSON value
can be; it is exact if there is no double in it, and unmarked if none of its objects would be taken
for the carrier of a text.
-/

namespace Gatehouse.Json.Value

/-- The values right inside a value. -/
def parts : Value → List Value
  | .array items => items
  | .object members => members.map (·.2)
  | .null | .bool _ | .number _ | .string _ => []

/-- Whether a value is a list or an object. -/
def isContainer : Value → Bool
  | .array _ | .object _ => true
  | _ => false

theorem parts_of_atom {v : Value} (h : v.isContainer = false) : v.parts = [] := by
  cases v with
  | array _ => cases h
  | object _ => cases h
  | null | bool | number | string => rfl

/-- Something holds of a value and of all values inside it. -/
inductive Everywhere (p : Value → Prop) : Value → Prop
  | intro {v : Value} (h : p v) (hs : ∀ w ∈ v.parts, Everywhere p w) : Everywhere p v

section Everywhere

variable {p q : Value → Prop} {v : Value}

theorem Everywhere.self (h : Everywhere p v) : p v := by
  cases h with
  | intro h _ => exact h

theorem Everywhere.parts (h : Everywhere p v) : ∀ w ∈ v.parts, Everywhere p w := by
  cases h with
  | intro _ hs => exact hs

theorem Everywhere.atom (hv : v.isContainer = false) (h : p v) : Everywhere p v := by
  refine .intro h ?_
  rw [parts_of_atom hv]
  exact nofun

theorem Everywhere.and (hp : Everywhere p v) (hq : Everywhere q v) :
    Everywhere (fun w => p w ∧ q w) v := by
  induction hp with
  | intro h _ ih => exact .intro ⟨h, hq.self⟩ fun w hw => ih w hw (hq.parts w hw)

end Everywhere

/-- Lists and objects are nested at most so deep. -/
inductive Within : Nat → Value → Prop
  | atom {n : Nat} {v : Value} (h : v.isContainer = false) : Within n v
  | inside {n : Nat} {v : Value} (h : ∀ w ∈ v.parts, Within n w) : Within (n + 1) v

theorem Within.parts {n : Nat} {v : Value} (h : Within (n + 1) v) : ∀ w ∈ v.parts, Within n w := by
  cases h with
  | inside h => exact h
  | atom h =>
    rw [parts_of_atom h]
    exact nofun

theorem Within.of_container {n : Nat} {v : Value} (h : Within n v) (hv : v.isContainer = true) :
    ∃ m, n = m + 1 := by
  cases h with
  | inside => exact ⟨_, rfl⟩
  | atom h =>
    rw [h] at hv
    cases hv

theorem Within.mono {n m : Nat} {v : Value} (h : Within n v) (hnm : n ≤ m) : Within m v := by
  induction h generalizing m with
  | atom h => exact .atom h
  | inside _ ih =>
    obtain ⟨m, rfl⟩ := Nat.exists_eq_add_of_le' (Nat.le_trans (Nat.le_add_left 1 _) hnm)
    exact .inside fun w hw => ih w hw (Nat.le_of_succ_le_succ hnm)

/-- What a value is from the outside: keys ascend and negative numbers are below zero. -/
def IsProper : Value → Prop
  | .number (.negative i) => i < 0
  | .object members => Dictionary.Ascending members
  | _ => True

/-- What a value without doubles is from the outside. -/
def IsExact : Value → Prop
  | .number (.float _) => False
  | _ => True

/-- What an object that is no carrier of a text is from the outside. -/
def IsUnmarked : Value → Prop
  | .object members => ∀ m ∈ members.head?, m.1 ≠ embeddedKey
  | _ => True

/-- Keys ascend and negative numbers are below zero, everywhere in a value. -/
abbrev Proper : Value → Prop := Everywhere IsProper

/-- There is no double in a value. -/
abbrev Exact : Value → Prop := Everywhere IsExact

/-- No object in a value has the marker for its first key. -/
abbrev Unmarked : Value → Prop := Everywhere IsUnmarked

end Gatehouse.Json.Value
