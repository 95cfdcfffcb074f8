import Gatehouse.Text.Case
import Mathlib.Data.List.Forall2

/-!
# The case of ASCII letters

Two texts are the same letters if they differ at most in the case of ASCII letters, place by place;
every other character has to be the same. Making the ASCII capitals small gives one text for each
class of such texts (`asciiLower_eq_iff`), in which no capital is left.
-/

namespace Gatehouse.Text

/-- One of the twenty-six ASCII capitals. -/
def IsCapital (c : Char) : Prop :=
  0x41 ≤ c.toNat ∧ c.toNat ≤ 0x5A

instance (c : Char) : Decidable (IsCapital c) :=
  inferInstanceAs (Decidable (_ ∧ _))

/-- The same character, or an ASCII capital and its small letter in either order. -/
inductive SameLetter : Char → Char → Prop
  | refl (c : Char) : SameLetter c c
  | capital {c d : Char} (hc : IsCapital c) (h : d.toNat = c.toNat + 0x20) : SameLetter c d
  | small {c d : Char} (hd : IsCapital d) (h : c.toNat = d.toNat + 0x20) : SameLetter c d

/-- Two texts are the same but for the case of ASCII letters. -/
def SameLetters (s t : String) : Prop :=
  List.Forall₂ SameLetter s.toList t.toList

theorem toNat_toLower_of_capital {c : Char} (h : IsCapital c) :
    c.toLower.toNat = c.toNat + 0x20 := by
  have hall : ∀ n : Fin 26, (Char.ofNat (0x41 + n)).toLower.toNat = 0x41 + n + 0x20 := by
    decide +kernel
  have hc := hall ⟨c.toNat - 0x41, by have := h.2; omega⟩
  have hn : 0x41 + (c.toNat - 0x41) = c.toNat := Nat.add_sub_cancel' h.1
  simp only [hn, Char.ofNat_toNat] at hc
  exact hc

theorem toLower_of_not_capital {c : Char} (h : ¬ IsCapital c) : c.toLower = c := by
  unfold Char.toLower
  rw [dif_neg]
  rintro ⟨hlow, hhigh⟩
  exact h ⟨hlow, hhigh⟩

/-- No capital is left. -/
theorem not_capital_toLower (c : Char) : ¬ IsCapital c.toLower := by
  by_cases h : IsCapital c
  · intro hlower
    have hvalue := toNat_toLower_of_capital h
    have hlow := h.1
    have hhigh := hlower.2
    omega
  · rwa [toLower_of_not_capital h]

theorem toLower_eq_iff {c d : Char} : c.toLower = d.toLower ↔ SameLetter c d := by
  constructor
  · intro h
    by_cases hc : IsCapital c
    · by_cases hd : IsCapital d
      · have hnat := congrArg Char.toNat h
        rw [toNat_toLower_of_capital hc, toNat_toLower_of_capital hd] at hnat
        rw [Char.toNat_inj.mp (Nat.add_right_cancel hnat)]
        exact .refl d
      · rw [toLower_of_not_capital hd] at h
        exact .capital hc (by rw [← h, toNat_toLower_of_capital hc])
    · rw [toLower_of_not_capital hc] at h
      by_cases hd : IsCapital d
      · exact .small hd (by rw [h, toNat_toLower_of_capital hd])
      · rw [h, toLower_of_not_capital hd]
        exact .refl d
  · -- The small letter to a capital is no capital itself.
    have hpair : ∀ {c d : Char}, IsCapital c → d.toNat = c.toNat + 0x20 →
        c.toLower = d.toLower := by
      intro c d hc h
      have hd : ¬ IsCapital d := by
        rintro ⟨-, hhigh⟩
        have hlow := hc.1
        omega
      rw [toLower_of_not_capital hd, ← Char.toNat_inj, toNat_toLower_of_capital hc, h]
    rintro (_ | ⟨hc, h⟩ | ⟨hd, h⟩)
    · rfl
    · exact hpair hc h
    · exact (hpair hd h).symm

/-- A capital is the same letter as itself and its small letter alone. -/
theorem sameLetter_iff_of_capital {c d : Char} (hd : IsCapital d) :
    SameLetter c d ↔ c = d ∨ c = d.toLower := by
  constructor
  · rintro (_ | ⟨hc, h⟩ | ⟨-, h⟩)
    · exact .inl rfl
    · -- No capital is the small letter to another.
      have hlow := hc.1
      have hhigh := hd.2
      omega
    · exact .inr (Char.toNat_inj.mp (h.trans (toNat_toLower_of_capital hd).symm))
  · rintro (rfl | rfl)
    · exact .refl c
    · exact toLower_eq_iff.mp (toLower_of_not_capital (not_capital_toLower d))

/-- Texts are the same in small letters exactly if they are the same letters. -/
theorem asciiLower_eq_iff {s t : String} : asciiLower s = asciiLower t ↔ SameLetters s t := by
  unfold asciiLower SameLetters
  rw [String.ofList_inj]
  generalize s.toList = cs
  generalize t.toList = ds
  induction cs generalizing ds with
  | nil => cases ds <;> simp
  | cons c cs ih =>
    cases ds with
    | nil => simp
    | cons d ds =>
      rw [List.map_cons, List.map_cons, List.cons.injEq, List.forall₂_cons, toLower_eq_iff, ih]

theorem SameLetters.rfl {s : String} : SameLetters s s :=
  asciiLower_eq_iff.mp (Eq.refl (asciiLower s))

instance (s t : String) : Decidable (SameLetters s t) :=
  decidable_of_iff _ asciiLower_eq_iff

theorem not_capital_of_mem_asciiLower {s : String} {c : Char} (h : c ∈ (asciiLower s).toList) :
    ¬ IsCapital c := by
  unfold asciiLower at h
  rw [String.toList_ofList] at h
  obtain ⟨d, -, rfl⟩ := List.mem_map.mp h
  exact not_capital_toLower d

/-- Small letters are the same letters. -/
theorem sameLetters_asciiLower (s : String) : SameLetters (asciiLower s) s := by
  rw [← asciiLower_eq_iff]
  unfold asciiLower
  rw [String.toList_ofList, List.map_map]
  congr 2
  funext c
  exact toLower_of_not_capital (not_capital_toLower c)

end Gatehouse.Text
