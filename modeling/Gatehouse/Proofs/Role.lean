import Gatehouse.Role
import Gatehouse.Proofs.Text.Spelling
import Gatehouse.Proofs.Text.Trimming

/-!
# Typed names of roles

No name of a role has a letter that lower case could have made of anything but an ASCII letter: of
the characters beyond ASCII the Kelvin sign alone becomes one, and no name has a k. So a typed text
names a role exactly if it is the role's name in any case with white space around it
(`Role.ofText_eq_ok_iff_padded`), and every other text is refused as it stands
(`Role.ofText_eq_error_iff`).
-/

namespace Gatehouse.Role

open Text

variable {s : String} {r : Role}

/-! ## Names -/

theorem small_of_mem_name {d : Char} (hd : d ∈ r.name.toList) :
    0x61 ≤ d.toNat ∧ d.toNat ≤ 0x7A := by
  have hall : r.name.toList.all fun d => 0x61 ≤ d.toNat ∧ d.toNat ≤ 0x7A := by cases r <;> decide
  exact of_decide_eq_true (List.all_eq_true.mp hall d hd)

theorem settled_name : Settled Char.toLower r.name.toList := by
  cases r <;> decide

theorem find?_name (r : Role) : all.find? (·.name == r.name) = some r := by
  cases r <;> decide

theorem lower_eq_name_iff : lower s = r.name ↔ SameLetters s r.name := by
  have hstrays : ∀ e ∈ loweredStrays, ¬ e.2 <:+: r.name.toList := by cases r <;> decide
  rw [lower_eq_iff_spells settled_name, SameLetters]
  exact spells_iff_sameLetter fun e he _ => hstrays e he

/-- What is a small letter up to case is no white space. -/
theorem not_blank_of_sameLetter {c d : Char} (h : SameLetter c d) (hlow : 0x61 ≤ d.toNat)
    (hhigh : d.toNat ≤ 0x7A) : isBlank c = false := by
  have hc : 0x41 ≤ c.toNat ∧ c.toNat ≤ 0x7A := by
    rcases h with _ | ⟨hcapital, hd⟩ | ⟨hcapital, -⟩
    · omega
    · have := hcapital.1
      omega
    · have := hcapital.2
      omega
  rw [← Bool.not_eq_true]
  intro hblank
  simp only [isBlank, Bool.or_eq_true, Bool.and_eq_true, beq_iff_eq, decide_eq_true_eq] at hblank
  omega

/-- What is a name up to case has no white space at its ends. -/
theorem tight_of_sameLetters (h : SameLetters s r.name) : Tight s.toList := by
  refine .of_no_blank ?_ fun c hc => ?_
  · intro hnil
    rw [SameLetters, hnil, List.forall₂_nil_left_iff] at h
    revert h
    cases r <;> decide
  · obtain ⟨i, hi, rfl⟩ := List.getElem_of_mem hc
    have hi' : i < r.name.toList.length := h.length_eq ▸ hi
    obtain ⟨hlow, hhigh⟩ := small_of_mem_name (List.getElem_mem hi')
    exact not_blank_of_sameLetter (h.get hi hi') hlow hhigh

/-! ## Reading -/

theorem ofText_eq_ok_iff : ofText s = .ok r ↔ SameLetters (trim s) r.name := by
  rw [← lower_eq_name_iff]
  unfold ofText
  constructor
  · intro h
    split at h
    · next r' hfind =>
      obtain rfl := Except.ok.inj h
      have hname := List.find?_some hfind
      rw [beq_iff_eq] at hname
      exact hname.symm
    · cases h
  · intro h
    rw [h, find?_name]

theorem ofText_eq_error_iff {e : Unknown} :
    ofText s = .error e ↔ (∀ r : Role, ¬ SameLetters (trim s) r.name) ∧ e = ⟨s⟩ := by
  simp only [← ofText_eq_ok_iff]
  unfold ofText
  split <;> simp [eq_comm]

/-- What names a role is its name in any case with any white space around it. -/
theorem ofText_eq_ok_iff_padded :
    ofText s = .ok r ↔ ∃ before typed after, s = before ++ typed ++ after ∧
      isAllBlank before ∧ isAllBlank after ∧ SameLetters typed r.name := by
  rw [ofText_eq_ok_iff]
  constructor
  · intro h
    obtain hblank | ⟨w, core, w', hs, hw, hw', hcore⟩ := blank_or_tight s.toList
    · have htrim : trim s = "" := by rw [trim, trimChars_of_blank hblank]
      rw [htrim] at h
      exact absurd rfl (tight_of_sameLetters h).ne_nil
    · have htrim : trim s = String.ofList core := by rw [trim, hs, hcore.trimChars_append hw hw']
      rw [htrim] at h
      refine ⟨.ofList w, .ofList core, .ofList w', ?_, ?_, ?_, h⟩
      · rw [← String.toList_inj]
        simp [hs]
      · simpa [isAllBlank] using hw
      · simpa [isAllBlank] using hw'
  · rintro ⟨before, typed, after, rfl, hbefore, hafter, h⟩
    have htrim : trim (before ++ typed ++ after) = typed := by
      rw [trim, String.toList_append, String.toList_append, List.append_assoc,
        (tight_of_sameLetters h).trimChars_append (List.all_eq_true.mp hbefore)
          (List.all_eq_true.mp hafter), String.ofList_toList]
    rwa [htrim]

/-- A name in any case is the name when its capitals are made small. -/
theorem name_eq_asciiLower (h : SameLetters s r.name) : r.name = asciiLower s := by
  have hname : asciiLower r.name = r.name := by cases r <;> decide
  rw [← hname]
  exact (asciiLower_eq_iff.mpr h).symm

/-! ## Main statement -/

/-- A typed text names a role exactly if, without the white space at its ends, it is the name of
the role up to the case of ASCII letters, whichever form lower case gives to a sigma. Every other
text is refused, and the refusal carries it as it was typed. So every padding and casing of a name
is read as its role, and the role is written in JSON in small letters, however it was typed. -/
theorem named_up_to_case :
    (∀ s r, ofText s = .ok r ↔ SameLetters (trim s) r.name) ∧
    (∀ s e, ofText s = .error e ↔ (∀ r : Role, ¬ SameLetters (trim s) r.name) ∧ e = ⟨s⟩) ∧
    (∀ s r, ofText s = .ok r ↔ ∃ before typed after, s = before ++ typed ++ after ∧
      isAllBlank before ∧ isAllBlank after ∧ SameLetters typed r.name) ∧
    (∀ s t r, Lowered (trim s).toList t.toList → (ofText s = .ok r ↔ t = r.name)) ∧
    ∀ s r, ofText s = .ok r →
      r.toJson.render = "\"" ++ r.name ++ "\"" ∧ r.name = asciiLower (trim s) := by
  refine ⟨fun _ _ => ofText_eq_ok_iff, fun _ _ => ofText_eq_error_iff,
    fun _ _ => ofText_eq_ok_iff_padded, fun s t r ht => ?_, fun s r h => ?_⟩
  · have hlower : lower (trim s) = r.name ↔ t = r.name := by
      rw [← String.toList_inj, lower, String.toList_ofList,
        ← ht.eq_iff fun d hd => (settled_name d hd).1, String.toList_inj]
    rw [ofText_eq_ok_iff, ← lower_eq_name_iff, hlower]
  · refine ⟨by cases r <;> rfl, name_eq_asciiLower (ofText_eq_ok_iff.mp h)⟩

/-- A name in mixed case between a tab and a wide space, and a name with a sigma behind it, of which
lower case may make the final form. -/
theorem named_up_to_case_beside_sigma :
    (ofText "\taDmIn\u3000" = .ok admin ∧
      admin.toJson.render = "\"" ++ admin.name ++ "\"" ∧
      admin.name = asciiLower (trim "\taDmIn\u3000")) ∧
    Lowered (trim "USER\u03A3").toList "user\u03C2".toList ∧
    ofText "USER\u03A3" ≠ .ok user := by
  have hpadded : ofText "\taDmIn\u3000" = .ok admin :=
    (named_up_to_case.2.2.1 _ _).mpr ⟨"\t", "aDmIn", "\u3000", by decide, by decide, by decide,
      by decide⟩
  have hsigma : Lowered (trim "USER\u03A3").toList "user\u03C2".toList := by
    have htrim : (trim "USER\u03A3").toList = ['U', 'S', 'E', 'R', '\u03A3'] := by decide +kernel
    have hletters := Lowered.char 'U' (.char 'S' (.char 'E' (.char 'R' (.finalSigma .nil))))
    rw [htrim]
    simpa [lowersAscii.ascii] using hletters
  refine ⟨⟨hpadded, named_up_to_case.2.2.2.2 _ _ hpadded⟩, hsigma, fun h => ?_⟩
  have hname := (named_up_to_case.2.2.2.1 _ _ _ hsigma).mp h
  revert hname
  decide

/-- Lower case makes a k of the Kelvin sign, which no name has, and two characters of the dotted
I. -/
example : ofText "\u212A" = .error ⟨"\u212A"⟩ ∧
    ofText " ADM\u0130N " = .error ⟨" ADM\u0130N "⟩ := by
  decide +kernel

end Gatehouse.Role
