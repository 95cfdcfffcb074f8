import Mathlib.Data.Nat.Digits.Defs
import Gatehouse.Decimal.Numeral

/-!
# The grammar of whole numbers

A text spells a whole number when it is a run of at least one digit, perhaps behind a plus sign,
whose value to the base ten is that number (`Decimal.Spells`). Reading with a bound accepts the
texts that spell a number below the bound, with that number, and no others
(`Decimal.below?_eq_some_iff`).
-/

namespace Gatehouse.Decimal

/-- The value of a run of digits to the base ten; the last digit counts least. -/
def value (ds : List Char) : Nat :=
  Nat.ofDigits 10 (ds.reverse.map fun c => c.toNat - '0'.toNat)

/-- A text is a run of at least one digit, perhaps behind a plus sign, with a number for its
value. -/
def Spells (s : String) (n : Nat) : Prop :=
  ∃ ds : List Char, ds ≠ [] ∧ (∀ c ∈ ds, c.isDigit = true) ∧
    (s.toList = ds ∨ s.toList = '+' :: ds) ∧ value ds = n

/-! ## Runs of digits -/

theorem value_cons (c : Char) (ds : List Char) :
    value (c :: ds) = (c.toNat - '0'.toNat) * 10 ^ ds.length + value ds := by
  unfold value
  rw [List.reverse_cons, List.map_append, Nat.ofDigits_append, List.map_singleton,
    Nat.ofDigits_singleton, List.length_map, List.length_reverse, Nat.mul_comm, Nat.add_comm]

theorem digit?_eq_some_iff {c : Char} {d : Nat} :
    digit? c = some d ↔ c.isDigit = true ∧ c.toNat - '0'.toNat = d := by
  have hdigit : c.isDigit = true ↔ '0' ≤ c ∧ c ≤ '9' := by
    simp only [Char.isDigit, Bool.and_eq_true, decide_eq_true_eq]
    rfl
  unfold digit?
  rw [hdigit]
  split
  · next h => simp [h]
  · next h => simp [h]

/-- Reading goes on from the value of the digits that stand in front. -/
theorem digits?_eq_some_iff {ds : List Char} {acc n : Nat} :
    digits? acc ds = some n ↔
      (∀ c ∈ ds, c.isDigit = true) ∧ acc * 10 ^ ds.length + value ds = n := by
  induction ds generalizing acc with
  | nil => simp [digits?, value]
  | cons c ds ih =>
    have hvalue : ∀ d, (acc * 10 + d) * 10 ^ ds.length + value ds =
        acc * 10 ^ (ds.length + 1) + (d * 10 ^ ds.length + value ds) := by
      intro d
      rw [Nat.add_mul, Nat.mul_assoc, ← Nat.pow_succ', Nat.add_assoc]
    simp only [digits?, Option.bind_eq_some_iff, digit?_eq_some_iff, ih, value_cons,
      List.forall_mem_cons, List.length_cons]
    constructor
    · rintro ⟨d, ⟨hc, rfl⟩, hds, hn⟩
      rw [hvalue] at hn
      exact ⟨⟨hc, hds⟩, hn⟩
    · rintro ⟨⟨hc, hds⟩, hn⟩
      rw [← hvalue] at hn
      exact ⟨_, ⟨hc, rfl⟩, hds, hn⟩

theorem natural?_eq_some_iff {ds : List Char} {n : Nat} :
    natural? ds = some n ↔ ds ≠ [] ∧ (∀ c ∈ ds, c.isDigit = true) ∧ value ds = n := by
  cases ds with
  | nil => simp [natural?]
  | cons c ds => simp [natural?, digits?_eq_some_iff]

/-! ## Texts -/

/-- A sign is no digit, so that a text has at most one reading. -/
theorem unsigned?_eq_some_iff {s : String} {n : Nat} :
    unsigned? s.toList = some n ↔ Spells s n := by
  unfold unsigned? Spells
  split
  · next cs hs =>
    rw [natural?_eq_some_iff, hs]
    constructor
    · rintro ⟨hne, hcs, hn⟩
      exact ⟨cs, hne, hcs, .inr rfl, hn⟩
    · rintro ⟨ds, hne, hds, rfl | htail, hn⟩
      · exact absurd (hds '+' List.mem_cons_self) (by decide)
      · obtain rfl := (List.cons.inj htail).2
        exact ⟨hne, hds, hn⟩
  · next hsign =>
    rw [natural?_eq_some_iff]
    constructor
    · rintro ⟨hne, hcs, hn⟩
      exact ⟨_, hne, hcs, .inl rfl, hn⟩
    · rintro ⟨ds, hne, hds, rfl | htail, hn⟩
      · exact ⟨hne, hds, hn⟩
      · exact absurd htail (hsign ds)

theorem below?_eq_some_iff {bound n : Nat} {s : String} :
    below? bound s = some n ↔ Spells s n ∧ n < bound := by
  simp [below?, Option.filter_eq_some_iff, unsigned?_eq_some_iff]

end Gatehouse.Decimal
