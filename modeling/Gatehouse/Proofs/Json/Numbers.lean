import Gatehouse.Proofs.Json.Grammar
import Gatehouse.Proofs.Json.Reading
import Gatehouse.Proofs.Text.Utf8

/-!
# Reading numbers

JSON writes a whole number in one way only, so that the text of a whole number that was read is its
numeral (`ends_int64`), and a numeral is read as its number wherever it ends (`ends_int64_of`,
`ends_number_of`). What the skipper takes for a number is one in the grammar (`ends_skipNumber`).
-/

namespace Gatehouse.Json

/-! ## Digits -/

/-- The digits of a natural number. -/
def digitsOf (n : Nat) : List UInt8 :=
  Utf8.encodeChars (Nat.toDigits 10 n)

theorem numeral_of_nonneg {i : Int} (h : 0 ≤ i) : numeral i = digitsOf i.natAbs := by
  rw [numeral, integerChars, if_neg (by omega)]
  rfl

theorem numeral_of_neg {i : Int} (h : i < 0) : numeral i = Byte.minus :: digitsOf i.natAbs := by
  rw [numeral, integerChars, if_pos h]
  rfl

/-- The byte of a digit. -/
theorem digit_byte {d : Nat} (h : d < 10) :
    ∃ b, Utf8.encodeChars [Nat.digitChar d] = [b] ∧ Byte.isDigit b = true ∧
      Byte.digitValue b = d ∧ (b = Byte.zero ↔ d = 0) := by
  have hall : ∀ d < 10, Utf8.encodeChars [Nat.digitChar d] = [UInt8.ofNat (0x30 + d)] ∧
      Byte.isDigit (UInt8.ofNat (0x30 + d)) = true ∧
      Byte.digitValue (UInt8.ofNat (0x30 + d)) = d ∧
      (UInt8.ofNat (0x30 + d) = Byte.zero ↔ d = 0) := by
    decide
  exact ⟨_, hall d h⟩

theorem digitValue_lt {b : UInt8} (h : Byte.isDigit b = true) : Byte.digitValue b < 10 := by
  simp only [Byte.isDigit, Bool.and_eq_true, decide_eq_true_eq, UInt8.le_iff_toNat_le] at h
  have hhigh : b.toNat ≤ 0x39 := h.2
  rw [Byte.digitValue]
  omega

theorem digitsOf_digitValue {b : UInt8} (h : Byte.isDigit b = true) :
    digitsOf (Byte.digitValue b) = [b] := by
  have hlow : 0x30 ≤ b.toNat ∧ b.toNat ≤ 0x39 := by
    simp only [Byte.isDigit, Bool.and_eq_true, decide_eq_true_eq, UInt8.le_iff_toNat_le] at h
    exact h
  have hall : ∀ n < 0x3A, 0x30 ≤ n →
      Utf8.encodeChars [Nat.digitChar (n - 0x30)] = [UInt8.ofNat n] := by
    decide
  rw [digitsOf, Nat.toDigits_of_lt_base (digitValue_lt h), Byte.digitValue,
    hall b.toNat (by omega) hlow.1, UInt8.ofNat_toNat]

/-- A digit more behind a number that is not zero. -/
theorem digitsOf_snoc {n : Nat} (hn : 0 < n) {b : UInt8} (h : Byte.isDigit b = true) :
    digitsOf (n * 10 + Byte.digitValue b) = digitsOf n ++ [b] := by
  have hjoin := Nat.toDigits_append_toDigits (b := 10) (by decide) hn (digitValue_lt h)
  rw [Nat.mul_comm] at hjoin
  have hb := digitsOf_digitValue h
  unfold digitsOf at hb ⊢
  rw [← hb, ← Utf8.encodeChars_append, hjoin]

/-- The value of some digits behind a part whose value is `n`. -/
def decimal (n : Nat) (ds : List UInt8) : Nat :=
  (ds.map Byte.digitValue).foldl (fun n d => n * 10 + d) n

theorem decimal_cons (n : Nat) (b : UInt8) (ds : List UInt8) :
    decimal n (b :: ds) = decimal (n * 10 + Byte.digitValue b) ds := by
  simp only [decimal, List.map_cons, List.foldl_cons]

theorem le_decimal (n : Nat) (ds : List UInt8) : n ≤ decimal n ds := by
  induction ds generalizing n with
  | nil => exact Nat.le_refl n
  | cons b ds ih =>
    rw [decimal_cons]
    have := ih (n * 10 + Byte.digitValue b)
    omega

/-- Digits behind a number that is not zero are the digits of their value. -/
theorem digitsOf_decimal {n : Nat} (hn : 0 < n) {ds : List UInt8} (hds : Digits ds) :
    digitsOf (decimal n ds) = digitsOf n ++ ds := by
  induction ds generalizing n with
  | nil => rw [List.append_nil]; rfl
  | cons b ds ih =>
    have hb := hds b List.mem_cons_self
    rw [decimal_cons, ih (by omega) (fun x hx => hds x (List.mem_cons_of_mem _ hx)),
      digitsOf_snoc hn hb, List.append_assoc, List.singleton_append]

theorem digitValue_pos {b : UInt8} (h : Byte.isDigit b = true) (hne : b ≠ Byte.zero) :
    0 < Byte.digitValue b := by
  rcases Nat.eq_zero_or_pos (Byte.digitValue b) with h0 | hpos
  · exfalso
    have hb := digitsOf_digitValue h
    rw [h0] at hb
    exact hne (List.cons.inj hb).1.symm
  · exact hpos

/-- The whole part of a number is the digits of its value. -/
theorem digitsOf_of_run {b : UInt8} (h : Byte.isDigit b = true) (hne : b ≠ Byte.zero)
    {ds : List UInt8} (hds : Digits ds) : digitsOf (decimal (Byte.digitValue b) ds) = b :: ds := by
  rw [digitsOf_decimal (digitValue_pos h hne) hds, digitsOf_digitValue h, List.singleton_append]

theorem digitsOf_zero : digitsOf 0 = [Byte.zero] := rfl

/-- The digits of a number that is not zero start with one that is not zero. -/
theorem exists_run {n : Nat} (hn : 0 < n) :
    ∃ b ds, digitsOf n = b :: ds ∧ Byte.isDigit b = true ∧ b ≠ Byte.zero ∧ Digits ds ∧
      decimal (Byte.digitValue b) ds = n := by
  induction n using Nat.strongRecOn with
  | _ n ih =>
    obtain ⟨x, hx, hxdigit, hxvalue, hxzero⟩ := digit_byte (Nat.mod_lt n (by decide : 0 < 10))
    by_cases hlt : n < 10
    · rw [Nat.mod_eq_of_lt hlt] at hx hxvalue hxzero
      refine ⟨x, [], ?_, hxdigit, fun h => by have := hxzero.mp h; omega, ?_, hxvalue⟩
      · rw [digitsOf, Nat.toDigits_of_lt_base hlt, hx]
      · intro b hb
        cases hb
    · obtain ⟨b, ds, hb, hdigit, hne, hds, hvalue⟩ := ih (n / 10) (by omega) (by omega)
      have hsplit : n / 10 * 10 + Byte.digitValue x = n := by omega
      refine ⟨b, ds ++ [x], ?_, hdigit, hne, ?_, ?_⟩
      · rw [← hsplit, digitsOf_snoc (by omega) hxdigit, hb, List.cons_append]
      · intro y hy
        rcases List.mem_append.mp hy with hy | hy
        · exact hds y hy
        · rw [List.mem_singleton.mp hy]
          exact hxdigit
      · rw [decimal, List.map_append, List.foldl_append]
        change decimal (Byte.digitValue b) ds * 10 + Byte.digitValue x = n
        rw [hvalue, hsplit]

/-! ## The end of a number -/

/-- A byte behind a value goes on with no number. -/
theorem not_number {b : UInt8} (h : Byte.isBlank b = true ∨ b = Byte.comma ∨
    b = Byte.closeBracket ∨ b = Byte.closeBrace) :
    Byte.isDigit b = false ∧ b ≠ Byte.point ∧ b ≠ Byte.smallE ∧ b ≠ Byte.capitalE := by
  simp only [Byte.isBlank, Bool.or_eq_true, beq_iff_eq] at h
  rcases h with (((rfl | rfl) | rfl) | rfl) | rfl | rfl | rfl <;> decide

theorem Ended.head_ne {t : List UInt8} (h : Ended t) {b : UInt8}
    (hb : Byte.isDigit b = true ∨ b = Byte.point ∨ b = Byte.smallE ∨ b = Byte.capitalE) :
    t.head? ≠ some b := by
  intro hhead
  obtain ⟨hdigit, hpoint, hsmall, hcapital⟩ := not_number (h b hhead)
  rcases hb with hb | hb | hb | hb
  · rw [hdigit] at hb
    cases hb
  · exact hpoint hb
  · exact hsmall hb
  · exact hcapital hb

/-- No digit stands here. -/
def NoDigit (t : List UInt8) : Prop :=
  ∀ b, t.head? = some b → Byte.isDigit b = false

theorem Ended.noDigit {t : List UInt8} (h : Ended t) : NoDigit t :=
  fun b hb => (not_number (h b hb)).1

theorem takeWhile_digits {t ds : List UInt8} (hds : Digits ds) (h : NoDigit t) :
    (ds ++ t).takeWhile Byte.isDigit = ds := by
  rw [List.takeWhile_append_of_pos hds]
  cases t with
  | nil => exact List.append_nil ds
  | cons b t => rw [List.takeWhile_cons_of_neg (by rw [h b rfl]; decide), List.append_nil]

/-- The digits in front of a text. -/
theorem exists_digits (t : List UInt8) : ∃ ds u, Digits ds ∧ NoDigit u ∧ t = ds ++ u := by
  refine ⟨t.takeWhile Byte.isDigit, t.dropWhile Byte.isDigit,
    List.all_eq_true.mp List.all_takeWhile, ?_, List.takeWhile_append_dropWhile.symm⟩
  intro b hb
  have hhead := List.head?_dropWhile_not Byte.isDigit t
  rw [hb] at hhead
  exact hhead

theorem Exponent.noDigit {e t : List UInt8} (he : Exponent e) (h : Ended t) : NoDigit (e ++ t) := by
  cases he with
  | none => exact h.noDigit
  | some hmark =>
    rintro b ⟨⟩
    rcases hmark with rfl | rfl <;> decide

theorem Fraction.noDigit {f e t : List UInt8} (hf : Fraction f) (he : Exponent e) (h : Ended t) :
    NoDigit (f ++ (e ++ t)) := by
  cases hf with
  | none => exact he.noDigit h
  | some =>
    rintro b ⟨⟩
    decide

namespace Reader

variable {c : Cursor}

/-! ## Whole numbers -/

theorem accumulate_of_lt {n : Nat} {ds : List UInt8} (h : decimal n ds < 0x10000000000000000) :
    accumulate n (ds.map Byte.digitValue) = (decimal n ds, []) := by
  induction ds generalizing n with
  | nil => rfl
  | cons b ds ih =>
    rw [decimal_cons] at h ⊢
    have hle := le_decimal (n * 10 + Byte.digitValue b) ds
    rw [List.map_cons, accumulate, if_pos (by omega), ih h]

/-- A significand that has all digits is their value. -/
theorem decimal_of_accumulate {n m : Nat} {ds : List UInt8} (hn : n < 0x10000000000000000)
    (h : accumulate n (ds.map Byte.digitValue) = (m, [])) :
    m = decimal n ds ∧ m < 0x10000000000000000 := by
  induction ds generalizing n with
  | nil =>
    cases h
    exact ⟨rfl, hn⟩
  | cons b ds ih =>
    rw [List.map_cons, accumulate] at h
    split at h
    · next hlt => exact ih hlt h
    · cases h

theorem ends_digitRun {good : List Nat → Cursor → Prop} {bad : Cursor → Prop} :
    Ends digitRun c good bad ↔
      good ((c.rest.takeWhile Byte.isDigit).map Byte.digitValue)
        (Cursor.advance (c.rest.takeWhile Byte.isDigit).length c) :=
  Iff.rfl

section Forward

variable {positive : Bool} {n : Nat} {good : Number → Cursor → Prop} {bad : Cursor → Prop}

/-- A whole part is the whole number where no fraction and no exponent follows. -/
theorem ends_afterWhole_of (hend : Ended c.rest) (hgood : good (wholeNumber positive n) c) :
    Ends (afterWhole positive n []) c good bad := by
  unfold afterWhole
  rw [ends_bind, ends_peek?]
  split
  · next h => exact absurd h (hend.head_ne (.inr (.inl rfl)))
  · next h => exact absurd h (hend.head_ne (.inr (.inr (.inl rfl))))
  · next h => exact absurd h (hend.head_ne (.inr (.inr (.inr rfl))))
  · exact hgood

/-- The digits of a number of 64 bits are read as that number. -/
theorem ends_numberBody_of (hn : n < 0x10000000000000000) {t : List UInt8}
    (h : c.rest = digitsOf n ++ t) (hend : Ended t)
    (hgood : ∀ d, d.rest = t → good (wholeNumber positive n) d) :
    Ends (numberBody positive) c good bad := by
  unfold numberBody
  rw [ends_bind, ends_next?]
  rcases Nat.eq_zero_or_pos n with rfl | hpos
  · rw [digitsOf_zero] at h
    have hstep : c.step.rest = t := by rw [Cursor.rest_step, h]; rfl
    rw [h]
    show Ends (peek? >>= _) c.step good bad
    rw [ends_bind, ends_peek?, hstep]
    split
    · next hdigit =>
      cases ht : t.head? with
      | none =>
        rw [ht] at hdigit
        cases hdigit
      | some b =>
        rw [ht] at hdigit
        exact absurd ht (hend.head_ne (.inl hdigit))
    · exact ends_afterWhole_of (by rw [hstep]; exact hend) (hgood _ hstep)
  · obtain ⟨b, ds, hb, hdigit, hne, hds, hvalue⟩ := exists_run hpos
    rw [hb, List.cons_append] at h
    have hstep : c.step.rest = ds ++ t := by rw [Cursor.rest_step, h]; rfl
    have hrun := takeWhile_digits hds hend.noDigit
    have hadvance : (Cursor.advance ds.length c.step).rest = t := by
      rw [Cursor.rest_advance, hstep, List.drop_left]
    rw [h]
    simp only [List.head?_cons, hdigit, Bool.not_true, Bool.false_eq_true, ↓reduceIte, hne]
    rw [ends_bind, ends_digitRun, hstep, hrun, accumulate_of_lt (by rw [hvalue]; exact hn), hvalue]
    exact ends_afterWhole_of (by rw [hadvance]; exact hend) (hgood _ hadvance)

end Forward

/-! ## Integers of 64 bits -/

theorem natAbs_lt (i : Int64) : i.toInt.natAbs < 0x10000000000000000 := by
  have hlow := i.le_toInt
  have hhigh := i.toInt_lt
  omega

/-- The whole number with the sign and the size of an integer is that integer. -/
theorem wholeNumber_natAbs (i : Int64) :
    wholeNumber (decide (0 ≤ i.toInt)) i.toInt.natAbs = Number.ofInt64 i := by
  have hlow := i.le_toInt
  by_cases hneg : i.toInt < 0
  · have hi : i < 0 := Int64.lt_iff_toInt_lt.mpr hneg
    have hofInt : Int64.ofInt (-(i.toInt.natAbs : Int)) = i := by
      rw [show -(i.toInt.natAbs : Int) = i.toInt by omega, Int64.ofInt_toInt]
    rw [wholeNumber, decide_eq_false (by omega), if_neg (by decide), if_neg (by omega), hofInt,
      Number.ofInt64, if_pos hi]
  · have hi : ¬ i < 0 := fun h => hneg (Int64.lt_iff_toInt_lt.mp h)
    have hle : 0 ≤ i := Int64.le_iff_toInt_le.mpr (by exact Int.not_lt.mp hneg)
    have hnat : i.toInt.natAbs.toUInt64 = i.toUInt64 := by
      rw [← UInt64.toNat_inj, Int64.toNat_toUInt64_of_le hle, UInt64.toNat_ofNat',
        Nat.mod_eq_of_lt (natAbs_lt i), ← Int64.toNat_toInt]
      omega
    rw [wholeNumber, decide_eq_true (by omega), if_pos rfl, hnat, Number.ofInt64, if_neg hi]

theorem inRange_toInt (i : Int64) :
    (inRange (-0x8000000000000000) 0x8000000000000000 i.toInt).map Int64.ofInt = some i := by
  have hlow := i.le_toInt
  have hhigh := i.toInt_lt
  rw [inRange, if_pos (by omega), Option.map_some, Int64.ofInt_toInt]

/-- The number as which an integer is written. -/
theorem ofInt64_cases (i : Int64) :
    (0 ≤ i.toInt ∧ ∃ u : UInt64, Number.ofInt64 i = .natural u ∧ (u.toNat : Int) = i.toInt) ∨
      (i.toInt < 0 ∧ Number.ofInt64 i = .negative i) := by
  by_cases hneg : i.toInt < 0
  · exact .inr ⟨hneg, if_pos (Int64.lt_iff_toInt_lt.mpr hneg)⟩
  · have hle : 0 ≤ i := Int64.le_iff_toInt_le.mpr (by exact Int.not_lt.mp hneg)
    refine .inl ⟨by omega, i.toUInt64, if_neg (fun h => hneg (Int64.lt_iff_toInt_lt.mp h)), ?_⟩
    rw [Int64.toNat_toUInt64_of_le hle, ← Int64.toNat_toInt]
    omega

theorem fitting_ofInt64 {α : Type} {expected : String} {fit : Int → Option α} {i : Int64} {a : α}
    (h : fit i.toInt = some a) : fitting expected fit (Number.ofInt64 i) = pure a := by
  rcases ofInt64_cases i with ⟨-, u, hu, hval⟩ | ⟨-, hneg⟩
  · simp only [hu, fitting, hval, h]
  · simp only [hneg, fitting, h]

/-- The first byte of a numeral. -/
theorem numeral_cases (i : Int) :
    (i < 0 ∧ numeral i = Byte.minus :: digitsOf i.natAbs) ∨
      (0 ≤ i ∧ numeral i = digitsOf i.natAbs ∧
        ∃ b ds, digitsOf i.natAbs = b :: ds ∧ Byte.isDigit b = true) := by
  by_cases hneg : i < 0
  · exact .inl ⟨hneg, numeral_of_neg hneg⟩
  · refine .inr ⟨by omega, numeral_of_nonneg (by omega), ?_⟩
    rcases Nat.eq_zero_or_pos i.natAbs with h0 | hpos
    · exact ⟨Byte.zero, [], by rw [h0, digitsOf_zero], by decide⟩
    · obtain ⟨b, ds, hb, hdigit, -⟩ := exists_run hpos
      exact ⟨b, ds, hb, hdigit⟩

section Integers

variable {i : Int64} {w t : List UInt8} {bad : Cursor → Prop}

/-- What stands behind the sign of a numeral is read as the number of the numeral. -/
theorem ends_numberBody_numeral (h : c.rest = digitsOf i.toInt.natAbs ++ t) (hend : Ended t)
    {positive : Bool} (hsign : positive = decide (0 ≤ i.toInt)) {good : Number → Cursor → Prop}
    (hgood : ∀ d, d.rest = t → good (Number.ofInt64 i) d) :
    Ends (numberBody positive) c good bad := by
  refine ends_numberBody_of (natAbs_lt i) h hend fun d hd => ?_
  rw [hsign, wholeNumber_natAbs]
  exact hgood d hd

/-- A numeral is read as its integer. -/
theorem ends_integer_of {α : Type} {expected : String} {fit : Int → Option α} {a : α}
    (hfit : fit i.toInt = some a) (hw : Blanks w) (h : c.rest = w ++ (numeral i.toInt ++ t))
    (hend : Ended t) {good : α → Cursor → Prop} (hgood : ∀ d, d.rest = t → good a d) :
    Ends (integer expected fit) c good bad := by
  unfold integer
  rw [ends_placed, ends_bind]
  rcases numeral_cases i.toInt with ⟨hneg, hnum⟩ | ⟨hpos, hnum, b, ds, hb, hdigit⟩
  · rw [hnum, List.cons_append] at h
    refine ends_ahead?_of hw (by decide) h fun d hd => ?_
    show Ends (skip >>= fun _ => numberBody false >>= fitting expected fit) d good bad
    rw [ends_bind, ends_skip, ends_bind]
    refine ends_numberBody_numeral (by rw [Cursor.rest_step, hd]; rfl) hend
      (decide_eq_false (by omega)).symm fun e he => ?_
    rw [fitting_ofInt64 hfit]
    exact hgood e he
  · rw [hnum, hb, List.cons_append] at h
    refine ends_ahead?_of hw (not_blank_of_digit hdigit) h fun d hd => ?_
    split
    · next heq => cases heq
    · next heq =>
      cases heq
      cases hdigit
    · next heq =>
      cases heq
      rw [if_pos hdigit, ends_bind]
      refine ends_numberBody_numeral (by rw [hd, hb, List.cons_append]) hend
        (decide_eq_true hpos).symm fun e he => ?_
      rw [fitting_ofInt64 hfit]
      exact hgood e he

/-- A numeral is read as an integer of 64 bits where it is one. -/
theorem ends_int64_of (hw : Blanks w) (h : c.rest = w ++ (numeral i.toInt ++ t)) (hend : Ended t)
    {good : Int64 → Cursor → Prop} (hgood : ∀ d, d.rest = t → good i d) :
    Ends int64 c good bad :=
  ends_integer_of (inRange_toInt i) hw h hend hgood

/-- A numeral is read as a number, with or without room for lists. -/
theorem ends_valueWith_numeral {parseText : Option (String → Except Error Value)}
    {inner : Option (Reader Value)} (hw : Blanks w) (h : c.rest = w ++ (numeral i.toInt ++ t))
    (hend : Ended t) {good : Value → Cursor → Prop}
    (hgood : ∀ d, d.rest = t → good (.number (Number.ofInt64 i)) d) :
    Ends (valueWith parseText inner) c good bad := by
  unfold valueWith
  rw [ends_placed, ends_bind]
  rcases numeral_cases i.toInt with ⟨hneg, hnum⟩ | ⟨hpos, hnum, b, ds, hb, hdigit⟩
  · rw [hnum, List.cons_append] at h
    refine ends_ahead?_of hw (by decide) h fun d hd => ?_
    show Ends (skip >>= fun _ => numberBody false >>= fun n => pure (.number n)) d good bad
    rw [ends_bind, ends_skip, ends_bind]
    exact ends_numberBody_numeral (by rw [Cursor.rest_step, hd]; rfl) hend
      (decide_eq_false (by omega)).symm hgood
  · rw [hnum, hb, List.cons_append] at h
    refine ends_ahead?_of hw (not_blank_of_digit hdigit) h fun d hd => ?_
    split
    case h_9 heq =>
      cases heq
      rw [if_pos hdigit, ends_bind]
      exact ends_numberBody_numeral (by rw [hd, hb, List.cons_append]) hend
        (decide_eq_true hpos).symm hgood
    all_goals
      next heq => cases heq <;> cases hdigit

end Integers

/-! ## What is read as an integer -/

theorem ends_floatOf {positive : Bool} {significand : Nat} {exponent : Int} :
    Ends (floatOf positive significand exponent) c (fun n _ => ∃ x, n = .float x)
      fun _ => True := by
  unfold floatOf
  split
  · exact ⟨_, rfl⟩
  · trivial

theorem ends_exponentDigits {positive upward : Bool} {significand : Nat} {start : Int} :
    Ends (exponentDigits positive significand start upward) c (fun n _ => ∃ x, n = .float x)
      fun _ => True := by
  unfold exponentDigits
  rw [ends_bind, ends_next?]
  split
  · trivial
  · split
    · trivial
    · rw [ends_bind, ends_get]
      dsimp only
      split
      · rw [ends_bind, ends_modify]
        exact ends_floatOf
      · split
        · trivial
        · exact ⟨_, rfl⟩

theorem ends_exponentPart {positive : Bool} {significand : Nat} {start : Int} :
    Ends (exponentPart positive significand start) c (fun n _ => ∃ x, n = .float x)
      fun _ => True := by
  unfold exponentPart
  rw [ends_bind, ends_skip, ends_bind, ends_peek?]
  split
  · rw [ends_bind, ends_skip]
    exact ends_exponentDigits
  · rw [ends_bind, ends_skip]
    exact ends_exponentDigits
  · exact ends_exponentDigits

theorem ends_fractionPart {positive : Bool} {significand : Nat} {start : Int} :
    Ends (fractionPart positive significand start) c (fun n _ => ∃ x, n = .float x)
      fun _ => True := by
  unfold fractionPart
  rw [ends_bind, ends_skip, ends_bind, ends_digitRun]
  split
  · rw [ends_bind, ends_peek?]
    split <;> trivial
  · unfold exponentOrEnd
    rw [ends_bind, ends_peek?]
    split
    · exact ends_exponentPart
    · exact ends_exponentPart
    · exact ends_floatOf

/-- What is read as a number and is no double is a run of digits. -/
theorem ends_afterWhole {positive : Bool} {significand : Nat} {surplus : List Nat} :
    Ends (afterWhole positive significand surplus) c
      (fun n d => (∃ x, n = .float x) ∨
        (surplus = [] ∧ n = wholeNumber positive significand ∧ d = c))
      fun _ => True := by
  unfold afterWhole
  rw [ends_bind, ends_peek?]
  split
  · exact ends_fractionPart.imp fun _ _ h => .inl h
  · exact ends_exponentPart.imp fun _ _ h => .inl h
  · exact ends_exponentPart.imp fun _ _ h => .inl h
  · split
    · next hempty => exact .inr ⟨List.isEmpty_iff.mp hempty, rfl, rfl⟩
    · exact ends_floatOf.imp fun _ _ h => .inl h

theorem ends_numberBody {positive : Bool} :
    Ends (numberBody positive) c
      (fun n d => (∃ x, n = .float x) ∨ ∃ m, m < 0x10000000000000000 ∧
        n = wholeNumber positive m ∧ c.rest = digitsOf m ++ d.rest)
      fun _ => True := by
  unfold numberBody
  rw [ends_bind, ends_next?]
  split
  · trivial
  · next b hb =>
    have hrest := Cursor.rest_of_head? hb
    split
    · trivial
    · next hdigit =>
      have hdigit' : Byte.isDigit b = true := by simpa using hdigit
      split
      · next hzero =>
        subst hzero
        rw [ends_bind, ends_peek?]
        split
        · trivial
        · apply ends_afterWhole.imp
          rintro n d (hfloat | ⟨-, hn, rfl⟩)
          · exact .inl hfloat
          · exact .inr ⟨0, by decide, hn, hrest⟩
      · next hne =>
        obtain ⟨ds, u, hds, hu, hstep⟩ := exists_digits c.step.rest
        have hrun : c.step.rest.takeWhile Byte.isDigit = ds := by
          rw [hstep, takeWhile_digits hds hu]
        rw [ends_bind, ends_digitRun, hrun]
        apply ends_afterWhole.imp
        rintro n d (hfloat | ⟨hsurplus, hn, rfl⟩)
        · exact .inl hfloat
        · have hlt := digitValue_lt hdigit'
          obtain ⟨hvalue, hbound⟩ := decimal_of_accumulate (by omega)
            (Prod.ext_iff.mpr ⟨rfl, hsurplus⟩)
          refine .inr ⟨_, hbound, hn, ?_⟩
          rw [hvalue, digitsOf_of_run hdigit' hne hds, hrest, hstep, Cursor.rest_advance, hstep,
            List.drop_left, List.cons_append]

theorem ends_fitting {α : Type} {expected : String} {fit : Int → Option α} {n : Number} :
    Ends (fitting expected fit n) c
      (fun a d => d = c ∧ ((∃ u : UInt64, n = .natural u ∧ fit u.toNat = some a) ∨
        ∃ j : Int64, n = .negative j ∧ fit j.toInt = some a))
      fun _ => True := by
  unfold fitting
  split
  · trivial
  · split
    · next a ha => exact ⟨rfl, .inl ⟨_, rfl, ha⟩⟩
    · trivial
  · split
    · next a ha => exact ⟨rfl, .inr ⟨_, rfl, ha⟩⟩
    · trivial

theorem toInt_of_inRange {i : Int} {a : Int64}
    (h : (inRange (-0x8000000000000000) 0x8000000000000000 i).map Int64.ofInt = some a) :
    a.toInt = i := by
  unfold inRange at h
  split at h
  · next hi =>
    rw [Option.map_some, Option.some.injEq] at h
    rw [← h, Int64.toInt_ofInt_of_le (by omega) (by omega)]
  · cases h

theorem toInt_ofInt_neg {m : Nat} (h : m ≤ 0x8000000000000000) :
    (Int64.ofInt (-(m : Int))).toInt = -m :=
  Int64.toInt_ofInt_of_le (by omega) (by omega)

/-- The text of a whole number that an integer was read off is the numeral of the integer. -/
theorem numeral_of_wholeNumber {positive : Bool} {m : Nat} (hm : m < 0x10000000000000000)
    {a : Int64}
    (h : (∃ u : UInt64, wholeNumber positive m = .natural u ∧ a.toInt = u.toNat) ∨
      ∃ j : Int64, wholeNumber positive m = .negative j ∧ a.toInt = j.toInt) :
    numeral a.toInt = if positive then digitsOf m else Byte.minus :: digitsOf m := by
  unfold wholeNumber at h
  cases positive with
  | true =>
    rw [if_pos rfl] at h
    rcases h with ⟨u, hu, ha⟩ | ⟨j, hj, -⟩
    · cases hu
      have hmod : m.toUInt64.toNat = m := by
        rw [UInt64.toNat_ofNat', Nat.mod_eq_of_lt hm]
      rw [hmod] at ha
      rw [if_pos rfl, numeral_of_nonneg (by omega), ha, Int.natAbs_natCast]
    · cases hj
  | false =>
    rw [if_neg Bool.false_ne_true] at h
    split at h
    · rcases h with ⟨u, hu, -⟩ | ⟨j, hj, -⟩
      · cases hu
      · cases hj
    · next hne =>
      rcases h with ⟨u, hu, -⟩ | ⟨j, hj, ha⟩
      · cases hu
      · cases hj
        rw [toInt_ofInt_neg (by omega)] at ha
        rw [if_neg Bool.false_ne_true, numeral_of_neg (by omega), ha, Int.natAbs_neg,
          Int.natAbs_natCast]

/-- What is read as an integer of 64 bits is its numeral. -/
theorem ends_int64 :
    Ends int64 c (fun a d => ∃ w, Blanks w ∧ c.rest = w ++ (numeral a.toInt ++ d.rest))
      fun _ => True := by
  have hread : ∀ {positive : Bool} {d : Cursor} {expected : String},
      Ends (numberBody positive >>= fitting expected
          fun i => (inRange (-0x8000000000000000) 0x8000000000000000 i).map Int64.ofInt) d
        (fun a e => ∃ m, d.rest = digitsOf m ++ e.rest ∧
          numeral a.toInt = if positive then digitsOf m else Byte.minus :: digitsOf m)
        fun _ => True := by
    intro positive d expected
    apply Ends.bind ends_numberBody
    rintro n e hn
    apply ends_fitting.imp
    rintro a e' ⟨rfl, hfit⟩
    rcases hn with ⟨x, rfl⟩ | ⟨m, hm, rfl, hrest⟩
    · rcases hfit with ⟨u, hu, -⟩ | ⟨j, hj, -⟩
      · cases hu
      · cases hj
    · refine ⟨m, hrest, numeral_of_wholeNumber hm ?_⟩
      rcases hfit with ⟨u, hu, hfit⟩ | ⟨j, hj, hfit⟩
      · exact .inl ⟨u, hu, toInt_of_inRange hfit⟩
      · exact .inr ⟨j, hj, toInt_of_inRange hfit⟩
  unfold int64 integer
  rw [ends_placed, ends_bind]
  refine ends_ahead?_intro fun w d hw hd _ => ?_
  split
  · trivial
  · next h =>
    rw [ends_bind, ends_skip]
    apply hread.imp
    rintro a e ⟨m, hrest, hnum⟩
    refine ⟨w, hw, ?_⟩
    rw [hd, Cursor.rest_of_head? h, hrest, hnum, if_neg Bool.false_ne_true]
    rfl
  · split
    · apply hread.imp
      rintro a e ⟨m, hrest, hnum⟩
      exact ⟨w, hw, by rw [hd, hrest, hnum, if_pos rfl]⟩
    · exact ends_mismatch

/-! ## Passing over numbers -/

section Digits

variable {good : Nat → Cursor → Prop} {bad : Cursor → Prop}

theorem ends_skipDigits :
    Ends skipDigits c good bad ↔
      good (c.rest.takeWhile Byte.isDigit).length
        (Cursor.advance (c.rest.takeWhile Byte.isDigit).length c) :=
  Iff.rfl

theorem ends_skipDigits_of {ds t : List UInt8} (h : c.rest = ds ++ t) (hds : Digits ds)
    (ht : NoDigit t) (hgood : ∀ d, d.rest = t → good ds.length d) :
    Ends skipDigits c good bad := by
  rw [ends_skipDigits, h, takeWhile_digits hds ht]
  exact hgood _ (by rw [Cursor.rest_advance, h, List.drop_left])

end Digits

section Numbers

variable {w f e t : List UInt8} {good : Unit → Cursor → Prop} {bad : Cursor → Prop}

theorem ends_skipExponentDigits_of {ds : List UInt8} (hne : ds ≠ []) (hds : Digits ds)
    (ht : NoDigit t) (h : c.rest = ds ++ t) (hgood : ∀ d, d.rest = t → good () d) :
    Ends skipExponentDigits c good bad := by
  obtain ⟨b, ds, rfl⟩ := List.exists_cons_of_ne_nil hne
  unfold skipExponentDigits
  rw [ends_bind, ends_next?, h]
  simp only [List.cons_append, List.head?_cons, Option.map_some, hds b List.mem_cons_self,
    Option.getD_some, ↓reduceIte]
  rw [ends_bind]
  exact ends_skipDigits_of (by rw [Cursor.rest_step, h]; rfl)
    (fun x hx => hds x (List.mem_cons_of_mem _ hx)) ht fun d hd => hgood d hd

theorem ends_skipExponent_of {mark : UInt8} {sign ds : List UInt8}
    (hsign : sign = [] ∨ sign = [Byte.plus] ∨ sign = [Byte.minus]) (hne : ds ≠ [])
    (hds : Digits ds) (ht : NoDigit t) (h : c.rest = mark :: (sign ++ ds) ++ t)
    (hgood : ∀ d, d.rest = t → good () d) : Ends skipExponent c good bad := by
  have hstep : c.step.rest = sign ++ (ds ++ t) := by
    rw [Cursor.rest_step, h, List.cons_append, List.append_assoc, List.tail_cons]
  unfold skipExponent
  rw [ends_bind, ends_skip, ends_bind, ends_peek?, hstep]
  rcases hsign with rfl | rfl | rfl
  · obtain ⟨b, ds, rfl⟩ := List.exists_cons_of_ne_nil hne
    have hb : Byte.isDigit b = true := hds b List.mem_cons_self
    rw [if_neg]
    · exact ends_skipExponentDigits_of hne hds ht hstep hgood
    · rintro (heq | heq)
      · rw [Option.some.inj heq] at hb
        cases hb
      · rw [Option.some.inj heq] at hb
        cases hb
  · rw [if_pos (.inl rfl), ends_bind, ends_skip]
    exact ends_skipExponentDigits_of hne hds ht (by rw [Cursor.rest_step, hstep]; rfl) hgood
  · rw [if_pos (.inr rfl), ends_bind, ends_skip]
    exact ends_skipExponentDigits_of hne hds ht (by rw [Cursor.rest_step, hstep]; rfl) hgood

theorem ends_skipExponentOrEnd_of (he : Exponent e) (ht : Ended t) (h : c.rest = e ++ t)
    (hgood : ∀ d, d.rest = t → good () d) : Ends skipExponentOrEnd c good bad := by
  unfold skipExponentOrEnd
  rw [ends_bind, ends_peek?, h]
  cases he with
  | none =>
    split
    · next heq => exact absurd heq (ht.head_ne (.inr (.inr (.inl rfl))))
    · next heq => exact absurd heq (ht.head_ne (.inr (.inr (.inr rfl))))
    · exact hgood c h
  | some hmark hsign hne hds =>
    rcases hmark with rfl | rfl
    · exact ends_skipExponent_of hsign hne hds ht.noDigit h hgood
    · exact ends_skipExponent_of hsign hne hds ht.noDigit h hgood

theorem ends_skipFractionOrEnd_of (hf : Fraction f) (he : Exponent e) (ht : Ended t)
    (h : c.rest = f ++ (e ++ t)) (hgood : ∀ d, d.rest = t → good () d) :
    Ends skipFractionOrEnd c good bad := by
  unfold skipFractionOrEnd
  rw [ends_bind, ends_peek?, h]
  cases hf with
  | none =>
    split
    · next heq =>
      cases he with
      | none => exact absurd heq (ht.head_ne (.inr (.inl rfl)))
      | some hmark =>
        rcases hmark with rfl | rfl
        · cases heq
        · cases heq
    · exact ends_skipExponentOrEnd_of he ht h hgood
  | @some ds hne hds =>
    show Ends (skip >>= fun _ => skipDigits >>= fun n =>
      if n = 0 then stopAhead .invalidNumber else skipExponentOrEnd) c good bad
    rw [ends_bind, ends_skip, ends_bind]
    refine ends_skipDigits_of (by rw [Cursor.rest_step, h]; rfl) hds (he.noDigit ht) fun d hd => ?_
    rw [if_neg (fun h0 => hne (List.eq_nil_of_length_eq_zero h0))]
    exact ends_skipExponentOrEnd_of he ht hd hgood

/-- The skipper passes over every number that ends where it ends. -/
theorem ends_skipNumber_of {m : List UInt8} (hm : Magnitude m) (ht : Ended t)
    (h : c.rest = m ++ t) (hgood : ∀ d, d.rest = t → good () d) :
    Ends skipNumber c good bad := by
  obtain ⟨w, f, e, rfl, hw, hf, he⟩ := hm
  rw [List.append_assoc, List.append_assoc] at h
  unfold skipNumber
  rw [ends_bind, ends_next?, h]
  cases hw with
  | zero =>
    have hstep : c.step.rest = f ++ (e ++ t) := by rw [Cursor.rest_step, h]; rfl
    show Ends (peek? >>= fun b =>
      if (b.map Byte.isDigit).getD false then stopAhead .invalidNumber else skipFractionOrEnd)
      c.step good bad
    rw [ends_bind, ends_peek?, hstep]
    have hnone : ((f ++ (e ++ t)).head?.map Byte.isDigit).getD false = false := by
      cases hhead : (f ++ (e ++ t)).head? with
      | none => rfl
      | some b => exact hf.noDigit he ht b hhead
    rw [hnone, if_neg (by decide)]
    exact ends_skipFractionOrEnd_of hf he ht hstep hgood
  | @run b ds hb hne hds =>
    have hstep : c.step.rest = ds ++ (f ++ (e ++ t)) := by rw [Cursor.rest_step, h]; rfl
    simp only [List.cons_append, List.head?_cons, Option.map_some, hb, Option.getD_some,
      Bool.not_true, Bool.false_eq_true, ↓reduceIte, Option.some.injEq, hne]
    rw [ends_bind]
    refine ends_skipDigits_of hstep hds (hf.noDigit he ht) fun d hd => ?_
    exact ends_skipFractionOrEnd_of hf he ht hd hgood

end Numbers

theorem ends_skipExponentDigits :
    Ends skipExponentDigits c (fun _ d => ∃ ds, ds ≠ [] ∧ Digits ds ∧ c.rest = ds ++ d.rest)
      fun _ => True := by
  unfold skipExponentDigits
  rw [ends_bind, ends_next?]
  split
  · next hdigit =>
    cases hhead : c.rest.head? with
    | none =>
      rw [hhead] at hdigit
      cases hdigit
    | some b =>
      rw [hhead] at hdigit
      have hrest := Cursor.rest_of_head? hhead
      obtain ⟨ds, u, hds, hu, hstep⟩ := exists_digits c.step.rest
      rw [ends_bind]
      refine ends_skipDigits_of hstep hds hu fun d hd => ?_
      refine ⟨b :: ds, List.cons_ne_nil b ds, ?_, by rw [hrest, hstep, hd, List.cons_append]⟩
      intro x hx
      rcases List.mem_cons.mp hx with rfl | hx
      · exact hdigit
      · exact hds x hx
  · trivial

theorem ends_skipExponentOrEnd :
    Ends skipExponentOrEnd c (fun _ d => ∃ e, Exponent e ∧ c.rest = e ++ d.rest)
      fun _ => True := by
  have hexponent : ∀ mark, mark = Byte.smallE ∨ mark = Byte.capitalE →
      c.rest.head? = some mark →
      Ends skipExponent c (fun _ d => ∃ e, Exponent e ∧ c.rest = e ++ d.rest) fun _ => True := by
    intro mark hmark hhead
    have hrest := Cursor.rest_of_head? hhead
    unfold skipExponent
    rw [ends_bind, ends_skip, ends_bind, ends_peek?]
    split
    · next hsign =>
      obtain ⟨sign, hsign', hstep⟩ : ∃ sign, (sign = Byte.plus ∨ sign = Byte.minus) ∧
          c.step.rest = sign :: c.step.step.rest := by
        rcases hsign with h | h
        · exact ⟨_, .inl rfl, Cursor.rest_of_head? h⟩
        · exact ⟨_, .inr rfl, Cursor.rest_of_head? h⟩
      rw [ends_bind, ends_skip]
      apply ends_skipExponentDigits.imp
      rintro _ d ⟨ds, hne, hds, hd⟩
      refine ⟨mark :: ([sign] ++ ds), .some hmark ?_ hne hds, ?_⟩
      · rcases hsign' with rfl | rfl
        · exact .inr (.inl rfl)
        · exact .inr (.inr rfl)
      · rw [hrest, hstep, hd]
        rfl
    · apply ends_skipExponentDigits.imp
      rintro _ d ⟨ds, hne, hds, hd⟩
      exact ⟨mark :: ([] ++ ds), .some hmark (.inl rfl) hne hds, by rw [hrest, hd]; rfl⟩
  unfold skipExponentOrEnd
  rw [ends_bind, ends_peek?]
  split
  · next h => exact hexponent _ (.inl rfl) h
  · next h => exact hexponent _ (.inr rfl) h
  · exact ⟨[], .none, rfl⟩

theorem ends_skipFractionOrEnd :
    Ends skipFractionOrEnd c
      (fun _ d => ∃ f e, Fraction f ∧ Exponent e ∧ c.rest = f ++ (e ++ d.rest))
      fun _ => True := by
  unfold skipFractionOrEnd
  rw [ends_bind, ends_peek?]
  split
  · next hpoint =>
    have hrest := Cursor.rest_of_head? hpoint
    obtain ⟨ds, u, hds, hu, hstep⟩ := exists_digits c.step.rest
    rw [ends_bind, ends_skip, ends_bind]
    refine ends_skipDigits_of hstep hds hu fun d hd => ?_
    split
    · trivial
    · next hlength =>
      apply ends_skipExponentOrEnd.imp
      rintro _ e ⟨x, hx, he⟩
      refine ⟨Byte.point :: ds, x, .some ?_ hds, hx, by rw [hrest, hstep, ← hd, he]; rfl⟩
      rintro rfl
      exact hlength rfl
  · apply ends_skipExponentOrEnd.imp
    rintro _ e ⟨x, hx, he⟩
    exact ⟨[], x, .none, hx, he⟩

/-- What the skipper takes for a number is one. -/
theorem ends_skipNumber :
    Ends skipNumber c (fun _ d => ∃ m, Magnitude m ∧ c.rest = m ++ d.rest) fun _ => True := by
  unfold skipNumber
  rw [ends_bind, ends_next?]
  split
  · trivial
  · next hdigit =>
    obtain ⟨b, hhead, hb⟩ : ∃ b, c.rest.head? = some b ∧ Byte.isDigit b = true := by
      cases hhead : c.rest.head? with
      | none =>
        rw [hhead] at hdigit
        exact absurd rfl hdigit
      | some b =>
        rw [hhead] at hdigit
        exact ⟨b, rfl, by simpa using hdigit⟩
    have hrest := Cursor.rest_of_head? hhead
    split
    · next hzero =>
      rw [hhead] at hzero
      cases hzero
      rw [ends_bind, ends_peek?]
      split
      · trivial
      · apply ends_skipFractionOrEnd.imp
        rintro _ d ⟨f, e, hf, he, hd⟩
        refine ⟨_, ⟨[Byte.zero], f, e, rfl, .zero, hf, he⟩, ?_⟩
        rw [hrest, hd, List.append_assoc, List.append_assoc]
        rfl
    · next hzero =>
      obtain ⟨ds, u, hds, hu, hstep⟩ := exists_digits c.step.rest
      rw [ends_bind]
      refine ends_skipDigits_of hstep hds hu fun d hd => ?_
      apply ends_skipFractionOrEnd.imp
      rintro _ d' ⟨f, e, hf, he, hd'⟩
      refine ⟨_, ⟨b :: ds, f, e, rfl, .run hb ?_ hds, hf, he⟩, ?_⟩
      · rintro rfl
        exact hzero hhead
      · rw [hrest, hstep, ← hd, hd', List.append_assoc, List.append_assoc, List.cons_append]

end Reader

/-! ## Numerals as values -/

theorem magnitude_digitsOf (n : Nat) : Magnitude (digitsOf n) := by
  refine ⟨digitsOf n, [], [], (List.append_nil _).symm, ?_, .none, .none⟩
  rcases Nat.eq_zero_or_pos n with rfl | hpos
  · exact .zero
  · obtain ⟨b, ds, hb, hdigit, hne, hds, -⟩ := exists_run hpos
    rw [hb]
    exact .run hdigit hne hds

/-- A numeral is a value. -/
theorem spells_numeral (i : Int) : Spells .value (numeral i) := by
  rcases Reader.numeral_cases i with ⟨-, hnum⟩ | ⟨-, hnum, -⟩
  · rw [hnum]
    exact .negative (magnitude_digitsOf _)
  · rw [hnum]
    exact .number (magnitude_digitsOf _)

end Gatehouse.Json
