import Gatehouse.Proofs.Text.Utf8

/-!
# The order of texts and of their bytes

UTF-8 keeps the order: one text comes before another by code points exactly when its bytes come
before the bytes of the other (`Utf8.encode_lt_encode`). Between characters of different lengths the
lead bytes decide, between characters of one length the first digit to base 64 that differs.
-/

namespace Gatehouse.Utf8

/-- The bytes of the lesser character come first, whatever follows either. -/
theorem encodeChar_append_lt {c d : Char} (h : c < d) (xs ys : List UInt8) :
    String.utf8EncodeChar c ++ xs < String.utf8EncodeChar d ++ ys := by
  have hlt : c.val.toNat < d.val.toNat := UInt32.lt_iff_toNat_lt.mp h
  have hc := toNat_valid c
  have hd := toNat_valid d
  unfold String.utf8EncodeChar
  generalize c.val.toNat = v at hlt hc ⊢
  generalize d.val.toNat = u at hlt hd ⊢
  have hv : v / 262144 % 8 = v / 262144 := by omega
  have hu : u / 262144 % 8 = u / 262144 := by omega
  dsimp only
  repeat' split
  all_goals
    simp only [List.cons_append, List.nil_append, List.cons_lt_cons_iff, UInt8.lt_iff_toNat_lt,
      ← UInt8.toNat_inj]
    simp (disch := omega) only [toNat_byte]
    omega

theorem encodeChars_lt_encodeChars {cs ds : List Char} (h : cs < ds) :
    encodeChars cs < encodeChars ds := by
  induction h with
  | @nil d ds =>
    obtain ⟨b, bs, hb⟩ := List.exists_cons_of_ne_nil (String.utf8EncodeChar_ne_nil (c := d))
    rw [encodeChars_cons, hb]
    exact List.Lex.nil
  | rel h =>
    rw [encodeChars_cons, encodeChars_cons]
    exact encodeChar_append_lt h _ _
  | @cons c cs ds _ ih =>
    rw [encodeChars_cons, encodeChars_cons]
    exact List.append_left_lt ih

/-- Texts are in the order of their bytes. -/
theorem encode_lt_encode {s t : String} : encode s < encode t ↔ s < t := by
  constructor
  · intro h
    rcases Std.lt_trichotomy s t with hlt | rfl | hgt
    · exact hlt
    · exact absurd h (List.lt_irrefl _)
    · exact absurd h (List.lt_asymm (encodeChars_lt_encodeChars hgt))
  · exact fun h => encodeChars_lt_encodeChars h

end Gatehouse.Utf8
