import Gatehouse.Decimal.Shortest

/-!
# The digits of a shortest figure

A positive double lies strictly above zero with its whole interval, so the multiple that the search
finds is not zero, and neither is the first digit of the figure (`Binary.proper_shortest`). That is
what makes a figure fit to be written as a number.
-/

namespace Gatehouse.Decimal

/-! ## Digits -/

/-- The decimal digits of a positive number start with one that is not zero. -/
theorem toDigits_of_pos {n : Nat} (hn : 0 < n) :
    ∃ c cs, Nat.toDigits 10 n = c :: cs ∧ c ≠ '0' := by
  induction n using Nat.strongRecOn with
  | _ n ih =>
    rw [Nat.toDigits_eq_if (by decide)]
    by_cases hlt : n < 10
    · have hall : ∀ d < 10, 0 < d → Nat.digitChar d ≠ '0' := by decide
      exact ⟨_, _, if_pos hlt, hall n hlt hn⟩
    · obtain ⟨c, cs, hcs, hc⟩ := ih (n / 10) (by omega) (by omega)
      exact ⟨c, cs ++ [Nat.digitChar (n % 10)], by rw [if_neg hlt, hcs, List.cons_append], hc⟩

/-- Stripping the zeros at the end leaves a first digit that is not zero where it is. -/
theorem stripZeros_cons {c : Char} (hc : c ≠ '0') (cs : List Char) :
    ∃ ds, stripZeros (c :: cs) = c :: ds ∧ ∀ d ∈ ds, d ∈ cs := by
  have hkept : ∀ ds : List Char, (ds ++ [c]).dropWhile (· == '0') =
      ds.dropWhile (· == '0') ++ [c] := by
    intro ds
    induction ds with
    | nil => simp [hc]
    | cons d ds ih =>
      by_cases hd : d = '0'
      · simp [hd, ih]
      · simp [hd]
  refine ⟨(cs.reverse.dropWhile (· == '0')).reverse, ?_, ?_⟩
  · rw [stripZeros, List.reverse_cons, hkept, List.reverse_append]
    rfl
  · intro d hd
    have hmem := (List.dropWhile_sublist (· == '0')).subset (List.mem_reverse.mp hd)
    exact List.mem_reverse.mp hmem

/-- A figure has digits only, and the first of them is not zero. -/
structure Figure.Proper (f : Figure) : Prop where
  /-- The first digit. -/
  head : ∃ c cs, f.digits = c :: cs ∧ c ≠ '0'
  /-- Every digit. -/
  all : ∀ c ∈ f.digits, c.isDigit = true

/-! ## The search -/

namespace Scaled

variable {s : Scaled}

theorem holds_of_nearest? {grid d : Nat} (h : s.nearest? grid = some d) :
    s.holds (d * grid) = true := by
  unfold nearest? at h
  dsimp only at h
  split at h
  · next hlow hhigh =>
    split at h
    · cases h
      exact hlow
    · split at h
      · cases h
        exact hhigh
      · cases h
        split
        · exact hlow
        · exact hhigh
  · next hlow _ =>
    cases h
    exact hlow
  · next _ hhigh =>
    cases h
    exact hhigh
  · cases h

theorem low_le_of_holds {n : Nat} (h : s.holds n = true) : s.low ≤ n := by
  unfold holds at h
  split at h
  · simp only [Bool.and_eq_true, decide_eq_true_eq] at h
    exact h.1
  · simp only [Bool.and_eq_true, decide_eq_true_eq] at h
    exact Nat.le_of_lt h.1

/-- Nothing in an interval above zero is zero. -/
theorem search_pos (hlow : 0 < s.low) (hvalue : 0 < s.value) (k : Nat) : 0 < (s.search k).1 := by
  induction k with
  | zero => exact hvalue
  | succ k ih =>
    unfold search
    split
    · next d hd =>
      have hle := low_le_of_holds (holds_of_nearest? hd)
      rcases Nat.eq_zero_or_pos d with rfl | hpos
      · rw [Nat.zero_mul] at hle
        omega
      · exact hpos
    · exact ih

end Scaled

namespace Binary

/-- The interval of a positive double lies above zero. -/
theorem scaled_pos {b : Binary} (hb : 0 < b.mantissa) : 0 < b.scaled.low ∧ 0 < b.scaled.value := by
  have hunit : 0 < Nat.pow 2 (b.exponent - 2).toNat * Nat.pow 5 (2 - b.exponent).toNat :=
    Nat.mul_pos (Nat.pow_pos (by decide)) (Nat.pow_pos (by decide))
  refine ⟨Nat.mul_pos ?_ hunit, Nat.mul_pos (by omega) hunit⟩
  split <;> omega

theorem proper_shortest {b : Binary} (hb : 0 < b.mantissa) : b.shortest.Proper := by
  obtain ⟨hlow, hvalue⟩ := scaled_pos hb
  obtain ⟨c, cs, hcs, hc⟩ := toDigits_of_pos
    (Scaled.search_pos hlow hvalue ((Nat.toDigits 10 b.scaled.value).length - 1))
  obtain ⟨ds, hds, hsub⟩ := stripZeros_cons hc cs
  have hdigits : b.shortest.digits = c :: ds := by
    rw [shortest, hcs, hds]
  refine ⟨⟨c, ds, hdigits, hc⟩, fun d hd => ?_⟩
  have hmem : d ∈ c :: cs := by
    rw [hdigits] at hd
    rcases List.mem_cons.mp hd with rfl | hd
    · exact List.mem_cons_self
    · exact List.mem_cons_of_mem _ (hsub d hd)
  rw [← hcs] at hmem
  exact Nat.isDigit_of_mem_toDigits (by decide) (by decide) hmem

/-- A double whose bits are not all zero, the sign apart, is not zero. -/
theorem mantissa_pos {bits : UInt64} (hsign : bits.toNat < 0x8000000000000000) (hne : bits ≠ 0) :
    0 < (ofBits bits).mantissa := by
  have hexp : ((bits >>> 52) &&& 0x7FF).toNat = bits.toNat / 2 ^ 52 := by
    rw [UInt64.toNat_and, UInt64.toNat_shiftRight, Nat.shiftRight_eq_div_pow]
    have hmask := Nat.and_two_pow_sub_one_eq_mod (bits.toNat / 2 ^ 52) 11
    exact hmask.trans (Nat.mod_eq_of_lt (by omega))
  have hfrac : (bits &&& 0xFFFFFFFFFFFFF).toNat = bits.toNat % 2 ^ 52 := by
    rw [UInt64.toNat_and]
    exact Nat.and_two_pow_sub_one_eq_mod bits.toNat 52
  have hpos : 0 < bits.toNat := by
    rcases Nat.eq_zero_or_pos bits.toNat with h0 | hpos
    · exact absurd (UInt64.toNat_inj.mp h0) hne
    · exact hpos
  unfold ofBits
  dsimp only
  rw [hexp, hfrac]
  split
  · show 0 < bits.toNat % 2 ^ 52
    omega
  · show 0 < 0x10000000000000 + bits.toNat % 2 ^ 52
    omega

end Binary

end Gatehouse.Decimal
