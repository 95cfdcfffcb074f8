import Gatehouse.Proofs.Codec.Base64Url
import Gatehouse.Proofs.Text.Trimming
import Gatehouse.Token.Bearer

/-!
# Header values that carry a token

A header value hands on what is tight in it, behind the scheme if that stands in front
(`credential?_of_scheme`, `credential?_of_tight`). A token has no white space in it, so that a
header value gives the token back whatever white space stands around it and whether or not the
scheme stands in front of it (`Carries.credential?_eq`).
-/

namespace Gatehouse.Token

open Text

/-! ## The scheme -/

/-- A text starts with the scheme, in whatever ASCII case, and a space. -/
def Announced (cs : List Char) : Prop :=
  ∃ s rest, s.map Char.toLower = ['b', 'e', 'a', 'r', 'e', 'r'] ∧ cs = s ++ ' ' :: rest

/-- Only the twenty-six capitals change in lower case, and they are no white space. -/
theorem toLower_of_isBlank {c : Char} (h : isBlank c = true) : c.toLower = c := by
  unfold Char.toLower
  split
  · next hupper =>
    exfalso
    have hlow : 65 ≤ c.toNat := hupper.1
    have hhigh : c.toNat ≤ 90 := hupper.2
    simp only [isBlank, Bool.or_eq_true, Bool.and_eq_true, beq_iff_eq, decide_eq_true_eq] at h
    omega
  · rfl

theorem eq_blank_of_toLower {c : Char} (h : c.toLower = ' ') : c = ' ' := by
  unfold Char.toLower at h
  split at h
  · next hupper =>
    exfalso
    have hlow : 65 ≤ c.val.toNat := hupper.1
    have hhigh : c.val.toNat ≤ 90 := hupper.2
    have hval : (c.val + ('a'.val - 'A'.val)).toNat = 32 := congrArg Char.toNat h
    rw [UInt32.toNat_add, show ('a'.val - 'A'.val).toNat = 32 by decide] at hval
    omega
  · exact h

/-- There is no white space in the scheme. -/
theorem not_blank_of_mem_scheme {s : List Char}
    (hs : s.map Char.toLower = ['b', 'e', 'a', 'r', 'e', 'r']) {c : Char} (hc : c ∈ s) :
    isBlank c = false := by
  cases hblank : isBlank c with
  | false => rfl
  | true =>
    have hmem : c.toLower ∈ s.map Char.toLower := List.mem_map_of_mem hc
    rw [toLower_of_isBlank hblank, hs] at hmem
    simp only [List.mem_cons, List.not_mem_nil, or_false] at hmem
    rcases hmem with rfl | rfl | rfl | rfl | rfl | rfl <;> cases hblank

theorem tight_scheme {s : List Char} (hs : s.map Char.toLower = ['b', 'e', 'a', 'r', 'e', 'r']) :
    Tight s := by
  refine .of_no_blank ?_ fun c => not_blank_of_mem_scheme hs
  rintro rfl
  cases hs

theorem dropScheme_of_not_announced {cs : List Char} (h : ¬ Announced cs) :
    dropScheme cs = cs := by
  rw [dropScheme, if_neg]
  intro htake
  obtain ⟨init, c, hcs, hinit, hc⟩ : ∃ init c, cs.take scheme.length = init ++ [c] ∧
      init.map Char.toLower = ['b', 'e', 'a', 'r', 'e', 'r'] ∧ c.toLower = ' ' := by
    have hsplit : (cs.take scheme.length).map Char.toLower =
        ['b', 'e', 'a', 'r', 'e', 'r'] ++ [' '] := htake
    obtain ⟨init, tail, hcs, hinit, htail⟩ := List.map_eq_append_iff.mp hsplit
    obtain ⟨c, rfl, hc⟩ := List.map_eq_singleton_iff.mp htail
    exact ⟨init, c, hcs, hinit, hc⟩
  refine h ⟨init, cs.drop scheme.length, hinit, ?_⟩
  rw [← List.singleton_append, ← List.append_assoc, ← eq_blank_of_toLower hc, ← hcs,
    List.take_append_drop]

theorem dropScheme_scheme {s cs : List Char}
    (hs : s.map Char.toLower = ['b', 'e', 'a', 'r', 'e', 'r']) :
    dropScheme (s ++ ' ' :: cs) = cs := by
  have hlength : s.length = 6 := by
    have := congrArg List.length hs
    rwa [List.length_map] at this
  have hsplit : s ++ ' ' :: cs = (s ++ [' ']) ++ cs := by
    rw [List.append_assoc, List.singleton_append]
  have hscheme : (s ++ [' ']).length = scheme.length := by
    rw [List.length_append, hlength]
    rfl
  rw [dropScheme, hsplit, List.take_left' hscheme, List.drop_left' hscheme, List.map_append, hs,
    if_pos]
  decide

/-! ## What a header value hands on -/

section

variable {header : String} {w v core : List Char}

theorem credential?_of_trimmed (hcore : Tight core)
    (h : trimChars (dropScheme (trimChars header.toList)) = core) :
    credential? header = some (String.ofList core) := by
  unfold credential?
  rw [h]
  split
  · exact absurd rfl hcore.ne_nil
  · rfl

variable (hw : ∀ c ∈ w, isBlank c = true) (hv : ∀ c ∈ v, isBlank c = true) (hcore : Tight core)

include hw hv hcore

/-- What is tight and does not start with the scheme is handed on. -/
theorem credential?_of_tight (hnot : ¬ Announced core) (h : header.toList = w ++ (core ++ v)) :
    credential? header = some (String.ofList core) := by
  apply credential?_of_trimmed hcore
  rw [h, hcore.trimChars_append hw hv, dropScheme_of_not_announced hnot, hcore.trimChars_eq]

/-- Behind the scheme and a space, what is tight is handed on, whatever it starts with. -/
theorem credential?_of_scheme {s u : List Char}
    (hs : s.map Char.toLower = ['b', 'e', 'a', 'r', 'e', 'r']) (hu : ∀ c ∈ u, isBlank c = true)
    (h : header.toList = w ++ (s ++ ' ' :: (u ++ core) ++ v)) :
    credential? header = some (String.ofList core) := by
  have hall : Tight (s ++ ' ' :: (u ++ core)) := by
    obtain ⟨b, rest, rfl, hb⟩ := (tight_scheme hs).head
    obtain ⟨init, d, rfl, hd⟩ := hcore.last
    exact ⟨⟨b, _, rfl, hb⟩, b :: (rest ++ ' ' :: (u ++ init)), d, by simp, hd⟩
  have hinner := hcore.trimChars_append (v := []) hu nofun
  rw [List.append_nil] at hinner
  apply credential?_of_trimmed hcore
  rw [h, hall.trimChars_append hw hv, dropScheme_scheme hs, hinner]

end

/-- A header value of white space only hands on nothing, and every other one hands on a part of it
that is tight. -/
theorem credential?_cases (header : String) :
    (credential? header = none ∧ ∀ c ∈ header.toList, isBlank c = true) ∨
    ∃ core, credential? header = some (String.ofList core) ∧ Tight core ∧
      core <:+: header.toList := by
  obtain hblank | ⟨w, core, w', hheader, hw, hw', hcore⟩ := blank_or_tight header.toList
  · refine .inl ⟨?_, hblank⟩
    unfold credential?
    rw [trimChars_of_blank hblank]
    rfl
  · right
    by_cases hannounced : Announced core
    · obtain ⟨s, rest, hs, rfl⟩ := hannounced
      obtain hblank | ⟨u, inner, v, rfl, hu, hv, hinner⟩ := blank_or_tight rest
      · -- what is tight does not end with the space behind the scheme
        have hspace : isBlank ' ' = true := by decide
        exact (hcore.not_blank_of_append (List.cons_ne_nil ' ' rest)
          (List.forall_mem_cons.mpr ⟨hspace, hblank⟩)).elim
      · have hend : ∀ c ∈ v ++ w', isBlank c = true := List.forall_mem_append.mpr ⟨hv, hw'⟩
        have hwhole : header.toList = w ++ (s ++ ' ' :: (u ++ inner) ++ (v ++ w')) := by
          rw [hheader]
          simp
        exact ⟨inner, credential?_of_scheme hw hend hinner hs hu hwhole, hinner,
          ⟨w ++ (s ++ ' ' :: u), v ++ w', by rw [hwhole]; simp⟩⟩
    · exact ⟨core, credential?_of_tight hw hw' hcore hannounced hheader, hcore,
        ⟨w, w', by rw [hheader, List.append_assoc]⟩⟩

/-! ## Header values that hold a token -/

/-- A header value holds a token: alone or behind the scheme in whatever case and at least one
space, with white space around it. -/
inductive Carries (token : String) : String → Prop
  | bare {w w' : List Char} : (∀ c ∈ w, isBlank c = true) → (∀ c ∈ w', isBlank c = true) →
      Carries token (String.ofList (w ++ (token.toList ++ w')))
  | scheme {w w' s : List Char} {n : Nat} : (∀ c ∈ w, isBlank c = true) →
      (∀ c ∈ w', isBlank c = true) → s.map Char.toLower = ['b', 'e', 'a', 'r', 'e', 'r'] →
      Carries token
        (String.ofList (w ++ (s ++ ' ' :: (List.replicate n ' ' ++ token.toList) ++ w')))

theorem Carries.self (token : String) : Carries token token := by
  have h : Carries token (String.ofList ([] ++ (token.toList ++ []))) := .bare nofun nofun
  rwa [List.nil_append, List.append_nil, String.ofList_toList] at h

theorem Carries.bearer (token : String) : Carries token ("Bearer " ++ token) := by
  have h : Carries token (String.ofList ([] ++ ("Bearer".toList ++ ' ' ::
      (List.replicate 0 ' ' ++ token.toList) ++ []))) := .scheme nofun nofun rfl
  have hheader : "Bearer " ++ token = String.ofList ([] ++ ("Bearer".toList ++ ' ' ::
      (List.replicate 0 ' ' ++ token.toList) ++ [])) := by
    rw [← String.toList_inj]
    simp
  rwa [hheader]

/-- A header value gives back the token that it holds. -/
theorem Carries.credential?_eq {token header : String} (h : Carries token header)
    (hne : token.toList ≠ []) (htoken : ∀ c ∈ token.toList, isBlank c = false) :
    credential? header = some token := by
  have hcore : Tight token.toList := .of_no_blank hne htoken
  have hnot : ¬ Announced token.toList := by
    rintro ⟨s, rest, -, hcs⟩
    have hspace := htoken ' ' (by rw [hcs]; simp)
    cases hspace
  suffices hsome : credential? header = some (String.ofList token.toList) by
    rwa [String.ofList_toList] at hsome
  cases h with
  | bare hw hw' => exact credential?_of_tight hw hw' hcore hnot String.toList_ofList
  | @scheme w w' s n hw hw' hs =>
    refine credential?_of_scheme hw hw' hcore hs (u := List.replicate n ' ') ?_
      String.toList_ofList
    intro c hc
    rw [(List.mem_replicate.mp hc).2]
    decide

end Gatehouse.Token
