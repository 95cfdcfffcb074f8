import Gatehouse.Proofs.Text.Utf8
import Gatehouse.Proofs.Token.Bearer
import Gatehouse.Proofs.Token.Decoding

/-!
# A scheme that changes nothing

The scheme in front of a credential changes nothing of what is made of it, whatever the credential
is (`scheme_transparent`). Looking for it in the first characters comes to the same as looking for
it in the first bytes: where seven bytes spell it they are seven characters, so nothing is ever cut
inside a character (`encodeChars_dropScheme`).
-/

namespace Gatehouse

namespace Utf8

/-- A byte in lower case, if it is an ASCII letter. -/
def lowerByte (b : UInt8) : UInt8 :=
  if 0x41 ≤ b ∧ b ≤ 0x5A then b + 0x20 else b

theorem lowerByte_of_high {b : UInt8} (h : 0x80 ≤ b.toNat) : lowerByte b = b := by
  rw [lowerByte, if_neg]
  rintro ⟨-, hle⟩
  have hle' : b.toNat ≤ 0x5A := UInt8.le_iff_toNat_le.mp hle
  omega

theorem toLower_of_high {c : Char} (h : 0x7F < c.toNat) : c.toLower = c := by
  unfold Char.toLower
  split
  · next hupper =>
    exfalso
    have hle : c.toNat ≤ 90 := hupper.2
    omega
  · rfl

/-- Lower case is the same for an ASCII character and its byte. -/
theorem lowerByte_of_ascii {c : Char} (h : c.toNat ≤ 0x7F) :
    lowerByte (UInt8.ofNat c.toNat) = UInt8.ofNat c.toLower.toNat ∧ c.toLower.toNat ≤ 0x7F := by
  have hall : ∀ n : Fin 128, lowerByte (UInt8.ofNat n) = UInt8.ofNat (Char.ofNat n).toLower.toNat ∧
      (Char.ofNat n).toLower.toNat ≤ 0x7F := by decide +kernel
  have hc := hall ⟨c.toNat, by omega⟩
  rwa [Char.ofNat_toNat] at hc

/-- No byte of a longer character is that of an ASCII character in upper or lower case, and its
first byte is one of its own. -/
theorem exists_high_head {c : Char} (h : 0x7F < c.toNat) (cs : List Char) :
    ∃ b bs, encodeChars (c :: cs) = b :: bs ∧ 0x80 ≤ b.toNat := by
  obtain ⟨b, bs, hb⟩ := List.exists_cons_of_ne_nil (String.utf8EncodeChar_ne_nil (c := c))
  refine ⟨b, bs ++ encodeChars cs, by rw [encodeChars_cons, hb]; rfl, ?_⟩
  exact high_of_mem_encodeChar h (by rw [hb]; exact List.mem_cons_self)

theorem encodeChars_cons_of_ascii {c : Char} (h : c.toNat ≤ 0x7F) (cs : List Char) :
    encodeChars (c :: cs) = UInt8.ofNat c.toNat :: encodeChars cs := by
  rw [encodeChars_cons, encodeChar_of_ascii h]
  rfl

theorem ofNat_toNat_inj {c d : Char} (hc : c.toNat ≤ 0x7F) (hd : d.toNat ≤ 0x7F) :
    UInt8.ofNat c.toNat = UInt8.ofNat d.toNat ↔ c = d := by
  constructor
  · intro h
    have hnat := congrArg UInt8.toNat h
    rw [toNat_byte (by omega), toNat_byte (by omega)] at hnat
    exact Char.toNat_inj.mp hnat
  · rintro rfl
    rfl

section Prefix

variable {t : List Char} (ht : ∀ c ∈ t, c.toNat ≤ 0x7F)

include ht

/-- The first bytes of a text spell an ASCII word in some case exactly if its first characters
do. -/
theorem map_lowerByte_take_iff (cs : List Char) :
    ((encodeChars cs).take t.length).map lowerByte = encodeChars t ↔
      (cs.take t.length).map Char.toLower = t := by
  induction t generalizing cs with
  | nil => exact iff_of_true rfl rfl
  | cons a t ih =>
    obtain ⟨ha, ht⟩ := List.forall_mem_cons.mp ht
    rw [encodeChars_cons_of_ascii ha]
    cases cs with
    | nil => exact iff_of_false nofun nofun
    | cons c cs =>
      by_cases hc : c.toNat ≤ 0x7F
      · obtain ⟨hbyte, hlower⟩ := lowerByte_of_ascii hc
        rw [encodeChars_cons_of_ascii hc, List.length_cons, List.take_succ_cons,
          List.take_succ_cons, List.map_cons, List.map_cons, List.cons_eq_cons, List.cons_eq_cons,
          hbyte, ofNat_toNat_inj hlower ha, ih ht]
      · -- the first byte is none of an ASCII character
        obtain ⟨b, bs, hb, hhigh⟩ := exists_high_head (Nat.lt_of_not_le hc) cs
        rw [hb, List.length_cons, List.take_succ_cons, List.take_succ_cons, List.map_cons,
          List.map_cons, lowerByte_of_high hhigh, toLower_of_high (Nat.lt_of_not_le hc)]
        refine iff_of_false (fun h => ?_) fun h => ?_
        · have hnat := congrArg UInt8.toNat (List.cons.inj h).1
          rw [toNat_byte (by omega)] at hnat
          omega
        · rw [(List.cons.inj h).1] at hc
          exact hc ha

/-- Behind an ASCII word a cut at the byte is a cut at the character. -/
theorem drop_encodeChars {cs : List Char} (h : (cs.take t.length).map Char.toLower = t) :
    (encodeChars cs).drop t.length = encodeChars (cs.drop t.length) := by
  induction t generalizing cs with
  | nil => rfl
  | cons a t ih =>
    obtain ⟨ha, ht⟩ := List.forall_mem_cons.mp ht
    cases cs with
    | nil => rfl
    | cons c cs =>
      rw [List.length_cons, List.take_succ_cons, List.map_cons] at h
      obtain ⟨hc, h⟩ := List.cons.inj h
      have hascii : c.toNat ≤ 0x7F := by
        refine Nat.le_of_not_lt fun hhigh => ?_
        rw [toLower_of_high hhigh] at hc
        exact Nat.not_le_of_lt hhigh (hc ▸ ha)
      rw [encodeChars_cons_of_ascii hascii, List.length_cons, List.drop_succ_cons,
        List.drop_succ_cons, ih ht h]

end Prefix

end Utf8

namespace Token

open Text

/-- Looking for the scheme in the first seven bytes and cutting behind them is looking for it in the
first characters and cutting behind those. -/
theorem encodeChars_dropScheme (cs : List Char) :
    Utf8.encodeChars (dropScheme cs) =
      if ((Utf8.encodeChars cs).take 7).map Utf8.lowerByte = Utf8.encode "bearer "
      then (Utf8.encodeChars cs).drop 7 else Utf8.encodeChars cs := by
  have hascii : ∀ c ∈ scheme, c.toNat ≤ 0x7F := by simp [scheme]
  have hword : Utf8.encode "bearer " = Utf8.encodeChars scheme := by decide
  have hiff := Utf8.map_lowerByte_take_iff hascii cs
  rw [hword]
  by_cases hscheme : (cs.take scheme.length).map Char.toLower = scheme
  · rw [dropScheme, if_pos hscheme]
    exact (Utf8.drop_encodeChars hascii hscheme).symm.trans (if_pos (hiff.mpr hscheme)).symm
  · rw [dropScheme, if_neg hscheme]
    exact (if_neg fun h => hscheme (hiff.mp h)).symm

theorem validate_congr {header header' : String}
    (h : credential? header = credential? header') (now : Nat) (secret : String) :
    validate now header secret = validate now header' secret := by
  unfold validate
  rw [h]

/-! ## Main statement -/

/-- The scheme changes nothing. In front of a credential that does not start with the scheme itself
and with any white space around, it gives the same claims or the same refusal as the credential
alone. For every header value the scheme is looked for and cut off at a byte that starts a
character, and what the decoder gets is a trimmed part of the value. -/
theorem scheme_transparent (now : Nat) (secret : String) :
    (∀ (t : String) (w s w' : List Char), ¬ (∀ c ∈ t.toList, isBlank c = true) →
      ¬ Announced (trimChars t.toList) → (∀ c ∈ w, isBlank c = true) →
      (∀ c ∈ w', isBlank c = true) → s.map Char.toLower = ['b', 'e', 'a', 'r', 'e', 'r'] →
      validate now (String.ofList (w ++ (s ++ ' ' :: t.toList ++ w'))) secret =
        validate now t secret) ∧
    ∀ header : String,
      let value := trimChars header.toList
      let bytes := Utf8.encodeChars value
      (Utf8.encodeChars (dropScheme value) =
        if (bytes.take 7).map Utf8.lowerByte = Utf8.encode "bearer " then bytes.drop 7
        else bytes) ∧
      ∀ token, credential? header = some token →
        token ≠ "" ∧ trim token = token ∧ token.toList <:+: header.toList ∧
        (secret ≠ "" →
          validate now header secret = (decode now token secret).mapError Fault.denial) := by
  constructor
  · intro t w s w' ht hnot hw hw' hs
    obtain hblank | ⟨u, core, v, htext, hu, hv, hcore⟩ := blank_or_tight t.toList
    · exact absurd hblank ht
    · rw [htext, hcore.trimChars_append hu hv] at hnot
      have halone : credential? t = some (String.ofList core) :=
        credential?_of_tight hu hv hcore hnot htext
      refine validate_congr ?_ now secret
      rw [halone]
      have hend : ∀ c ∈ v ++ w', isBlank c = true := List.forall_mem_append.mpr ⟨hv, hw'⟩
      refine credential?_of_scheme hw hend hcore hs hu ?_
      rw [String.toList_ofList, htext]
      simp
  · intro header value bytes
    refine ⟨encodeChars_dropScheme value, fun token htoken => ?_⟩
    obtain ⟨hnone, -⟩ | ⟨core, hsome, hcore, hpart⟩ := credential?_cases header
    · rw [hnone] at htoken
      cases htoken
    · rw [hsome] at htoken
      obtain rfl := Option.some.inj htoken
      refine ⟨?_, ?_, ?_, fun hsecret => validate_of_credential hsecret hsome now⟩
      · intro hempty
        exact hcore.ne_nil (by rw [← String.toList_ofList (l := core), hempty]; rfl)
      · rw [trim, String.toList_ofList, hcore.trimChars_eq]
      · rwa [String.toList_ofList]

/-- A short credential behind a tab is the same behind the scheme, and a value with a character
across the seventh byte is its own credential. -/
theorem scheme_transparent_across_seventh_byte :
    let t := "\t\u00e9.b"
    let w := [Char.ofNat 0xA0]
    let s := ['b', 'E', 'A', 'R', 'E', 'R']
    let w' := ['\n']
    let header := "123456\u00e9"
    ¬ (∀ c ∈ t.toList, isBlank c = true) ∧ ¬ Announced (trimChars t.toList) ∧
      (∀ c ∈ w, isBlank c = true) ∧ (∀ c ∈ w', isBlank c = true) ∧
      s.map Char.toLower = ['b', 'e', 'a', 'r', 'e', 'r'] ∧
      validate 0 (String.ofList (w ++ (s ++ ' ' :: t.toList ++ w'))) "key" = validate 0 t "key" ∧
      credential? header = some header ∧ header.toList <:+: header.toList := by
  intro t w s w' header
  have ht : ¬ ∀ c ∈ t.toList, isBlank c = true := fun h => by
    have hpoint := h '.' (by decide)
    cases hpoint
  have hnot : ¬ Announced (trimChars t.toList) := by
    rintro ⟨s, rest, hs, hsplit⟩
    have hlength := congrArg List.length hs
    have hshort := congrArg List.length hsplit
    rw [List.length_map] at hlength
    rw [List.length_append, hlength, show (trimChars t.toList).length = 3 by decide] at hshort
    simp only [List.length_cons] at hshort
    omega
  have hw : ∀ c ∈ w, isBlank c = true := List.all_eq_true.mp rfl
  have hw' : ∀ c ∈ w', isBlank c = true := List.all_eq_true.mp rfl
  have hs : s.map Char.toLower = ['b', 'e', 'a', 'r', 'e', 'r'] := by decide
  have hcredential : credential? header = some header := by decide
  obtain ⟨hbehind, hpart⟩ := scheme_transparent 0 "key"
  exact ⟨ht, hnot, hw, hw', hs, hbehind t w s w' ht hnot hw hw' hs, hcredential,
    ((hpart header).2 header hcredential).2.2.1⟩

end Token

end Gatehouse
