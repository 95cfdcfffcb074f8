import Gatehouse.Text.Utf8

/-!
# Encoding and decoding UTF-8

Decoding gives back every text that was encoded (`Utf8.decode_encode`), and encoding gives back all
bytes that were decoded (`Utf8.encode_of_decode`). The four lengths of a character are the four
cases of its code point; each byte that the encoder writes meets the demands that the decoder makes
of it there.
-/

namespace Gatehouse.Utf8

/-! ## The bytes of a character as numbers -/

theorem toNat_byte {n : Nat} (h : n < 256) : (UInt8.ofNat n).toNat = n := by
  simp [Nat.mod_eq_of_lt h]

/-- The demands of a lead byte, by its number. -/
theorem lead?_of_toNat {b : UInt8} {n : Nat} (h : b.toNat = n) :
    lead? b =
      if n < 0xC2 then none
      else if n ≤ 0xDF then some ⟨0x80, 0xBF, 0⟩
      else if n = 0xE0 then some ⟨0xA0, 0xBF, 1⟩
      else if n = 0xED then some ⟨0x80, 0x9F, 1⟩
      else if n ≤ 0xEF then some ⟨0x80, 0xBF, 1⟩
      else if n = 0xF0 then some ⟨0x90, 0xBF, 2⟩
      else if n ≤ 0xF3 then some ⟨0x80, 0xBF, 2⟩
      else if n = 0xF4 then some ⟨0x80, 0x8F, 2⟩
      else none := by
  subst h
  simp only [lead?, UInt8.lt_iff_toNat_lt, UInt8.le_iff_toNat_le, ← UInt8.toNat_inj]
  rfl

theorem tailBits_byte {n : Nat} (h : n < 64) : tailBits (UInt8.ofNat (n + 0x80)) = n := by
  rw [tailBits, toNat_byte (by omega)]
  omega

theorem isTail_byte {n : Nat} (h : n < 64) : isTail (UInt8.ofNat (n + 0x80)) = true := by
  simp only [isTail, Bool.and_eq_true, decide_eq_true_eq, UInt8.le_iff_toNat_le,
    toNat_byte (show n + 0x80 < 256 by omega)]
  constructor
  · show 0x80 ≤ n + 0x80
    omega
  · show n + 0x80 ≤ 0xBF
    omega

/-- Whether a second byte lies outside the bounds, by its number. -/
theorem outside_byte {low high : UInt8} {n : Nat} (h : n < 64)
    (hlow : low.toNat ≤ n + 0x80) (hhigh : n + 0x80 ≤ high.toNat) :
    (UInt8.ofNat (n + 0x80) < low || high < UInt8.ofNat (n + 0x80)) = false := by
  simp only [Bool.or_eq_false_iff, decide_eq_false_iff_not, UInt8.lt_iff_toNat_lt,
    toNat_byte (show n + 0x80 < 256 by omega)]
  omega

/-! ## One character -/

section Multibyte

variable {i : Nat} {b c d e : UInt8} {rest : List UInt8} {low high : UInt8} {more : Nat}
  (hb : ¬ b < 0x80) (hlead : lead? b = some ⟨low, high, more⟩)
  (hc : (c < low || high < c) = false)

include hb hlead hc

theorem decodeFrom_two (hmore : more = 0) :
    decodeFrom i (b :: c :: rest) =
      (decodeFrom (i + 2) rest).map (Char.ofNat (b.toNat % 32 * 64 + tailBits c) :: ·) := by
  rw [decodeFrom]
  simp only [hb, hlead, hc, hmore, Bool.false_eq_true, ↓reduceIte]

theorem decodeFrom_three (hmore : more = 1) (hd : isTail d = true) :
    decodeFrom i (b :: c :: d :: rest) =
      (decodeFrom (i + 3) rest).map
        (Char.ofNat ((b.toNat % 16 * 64 + tailBits c) * 64 + tailBits d) :: ·) := by
  rw [decodeFrom]
  simp only [hb, hlead, hc, hd, hmore, Bool.false_eq_true, ↓reduceIte, Nat.one_ne_zero,
    Bool.not_true]

theorem decodeFrom_four (hmore : more = 2) (hd : isTail d = true) (he : isTail e = true) :
    decodeFrom i (b :: c :: d :: e :: rest) =
      (decodeFrom (i + 4) rest).map
        (Char.ofNat (((b.toNat % 8 * 64 + tailBits c) * 64 + tailBits d) * 64 + tailBits e) ::
          ·) := by
  rw [decodeFrom]
  simp only [hb, hlead, hc, hd, he, hmore, Bool.false_eq_true, ↓reduceIte, Bool.not_true,
    show (2 : Nat) ≠ 0 by decide, show (2 : Nat) ≠ 1 by decide]

end Multibyte

/-- A code point is not a surrogate and not past the last one. -/
theorem toNat_valid (c : Char) :
    c.val.toNat < 0xD800 ∨ (0xDFFF < c.val.toNat ∧ c.val.toNat < 0x110000) :=
  c.valid

theorem not_ascii_byte {n : Nat} (hlow : 0x80 ≤ n) (hhigh : n < 256) : ¬ UInt8.ofNat n < 0x80 := by
  rw [UInt8.lt_iff_toNat_lt, toNat_byte hhigh]
  show ¬ n < 0x80
  omega

/-- What the lead byte of three asks of the second byte lets through every code point of three bytes
but the surrogates. -/
theorem lead?_three {v : Nat} (hlow : 0x7FF < v) (hhigh : v ≤ 0xFFFF)
    (hvalid : v < 0xD800 ∨ 0xDFFF < v) :
    ∃ low high, lead? (UInt8.ofNat (v / 4096 % 16 + 0xE0)) = some ⟨low, high, 1⟩ ∧
      low.toNat ≤ v / 64 % 64 + 0x80 ∧ v / 64 % 64 + 0x80 ≤ high.toNat := by
  rw [lead?_of_toNat (toNat_byte (show v / 4096 % 16 + 0xE0 < 256 by omega)), if_neg (by omega),
    if_neg (by omega)]
  by_cases hfirst : v / 4096 % 16 + 0xE0 = 0xE0
  · rw [if_pos hfirst]
    refine ⟨0xA0, 0xBF, rfl, ?_, ?_⟩
    · show 0xA0 ≤ _
      omega
    · show _ ≤ 0xBF
      omega
  · rw [if_neg hfirst]
    by_cases hsurrogate : v / 4096 % 16 + 0xE0 = 0xED
    · rw [if_pos hsurrogate]
      refine ⟨0x80, 0x9F, rfl, ?_, ?_⟩
      · show 0x80 ≤ _
        omega
      · show _ ≤ 0x9F
        omega
    · rw [if_neg hsurrogate, if_pos (by omega)]
      refine ⟨0x80, 0xBF, rfl, ?_, ?_⟩
      · show 0x80 ≤ _
        omega
      · show _ ≤ 0xBF
        omega

/-- What the lead byte of four asks of the second byte lets through every code point of four bytes
up to the last. -/
theorem lead?_four {v : Nat} (hlow : 0xFFFF < v) (hhigh : v < 0x110000) :
    ∃ low high, lead? (UInt8.ofNat (v / 262144 % 8 + 0xF0)) = some ⟨low, high, 2⟩ ∧
      low.toNat ≤ v / 4096 % 64 + 0x80 ∧ v / 4096 % 64 + 0x80 ≤ high.toNat := by
  rw [lead?_of_toNat (toNat_byte (show v / 262144 % 8 + 0xF0 < 256 by omega)), if_neg (by omega),
    if_neg (by omega), if_neg (by omega), if_neg (by omega), if_neg (by omega)]
  by_cases hfirst : v / 262144 % 8 + 0xF0 = 0xF0
  · rw [if_pos hfirst]
    refine ⟨0x90, 0xBF, rfl, ?_, ?_⟩
    · show 0x90 ≤ _
      omega
    · show _ ≤ 0xBF
      omega
  · rw [if_neg hfirst]
    by_cases hmiddle : v / 262144 % 8 + 0xF0 ≤ 0xF3
    · rw [if_pos hmiddle]
      refine ⟨0x80, 0xBF, rfl, ?_, ?_⟩
      · show 0x80 ≤ _
        omega
      · show _ ≤ 0xBF
        omega
    · rw [if_neg hmiddle, if_pos (by omega)]
      refine ⟨0x80, 0x8F, rfl, ?_, ?_⟩
      · show 0x80 ≤ _
        omega
      · show _ ≤ 0x8F
        omega

/-- The decoder takes one character off the bytes that the encoder wrote for it. -/
theorem decodeFrom_encodeChar (i : Nat) (c : Char) (rest : List UInt8) :
    decodeFrom i (String.utf8EncodeChar c ++ rest) =
      (decodeFrom (i + (String.utf8EncodeChar c).length) rest).map (c :: ·) := by
  have hvalid := toNat_valid c
  have hc : Char.ofNat c.val.toNat = c := Char.ofNat_toNat c
  unfold String.utf8EncodeChar
  generalize c.val.toNat = v at hvalid hc ⊢
  dsimp only
  split
  · next h1 =>
    have hb : UInt8.ofNat v < 0x80 := by
      rw [UInt8.lt_iff_toNat_lt, toNat_byte (by omega)]
      show v < 0x80
      omega
    simp only [List.cons_append, List.nil_append, decodeFrom, hb, ↓reduceIte,
      toNat_byte (show v < 256 by omega), hc, List.length_cons, List.length_nil]
  · next h1 =>
    split
    · next h2 =>
      -- two bytes: the lead byte lies between `0xC2` and `0xDF`
      have hn : (UInt8.ofNat (v / 64 % 32 + 0xC0)).toNat = v / 64 % 32 + 0xC0 :=
        toNat_byte (by omega)
      have hlead : lead? (UInt8.ofNat (v / 64 % 32 + 0xC0)) = some ⟨0x80, 0xBF, 0⟩ := by
        rw [lead?_of_toNat hn, if_neg (by omega), if_pos (by omega)]
      have hsecond := @outside_byte 0x80 0xBF _ (Nat.mod_lt v (by decide : 0 < 64))
        (by show 0x80 ≤ _; omega) (by show _ ≤ 0xBF; omega)
      rw [List.cons_append, List.cons_append,
        decodeFrom_two (not_ascii_byte (by omega) (by omega)) hlead hsecond rfl, hn,
        tailBits_byte (Nat.mod_lt v (by decide))]
      have hsum : (v / 64 % 32 + 0xC0) % 32 * 64 + v % 64 = v := by omega
      rw [hsum, hc]
      rfl
    · next h2 =>
      split
      · next h3 =>
        -- three bytes
        obtain ⟨low, high, hlead, hlow, hhigh⟩ := lead?_three (by omega) h3 (by omega)
        have hn : (UInt8.ofNat (v / 4096 % 16 + 0xE0)).toNat = v / 4096 % 16 + 0xE0 :=
          toNat_byte (by omega)
        have hsecond := outside_byte (Nat.mod_lt (v / 64) (by decide : 0 < 64)) hlow hhigh
        rw [List.cons_append, List.cons_append, List.cons_append,
          decodeFrom_three (not_ascii_byte (by omega) (by omega)) hlead hsecond rfl
            (isTail_byte (Nat.mod_lt v (by decide))),
          hn, tailBits_byte (Nat.mod_lt _ (by decide)), tailBits_byte (Nat.mod_lt _ (by decide))]
        have hsum : ((v / 4096 % 16 + 0xE0) % 16 * 64 + v / 64 % 64) * 64 + v % 64 = v := by omega
        rw [hsum, hc]
        rfl
      · next h3 =>
        -- four bytes
        obtain ⟨low, high, hlead, hlow, hhigh⟩ :=
          lead?_four (show 0xFFFF < v by omega) (by omega)
        have hn : (UInt8.ofNat (v / 262144 % 8 + 0xF0)).toNat = v / 262144 % 8 + 0xF0 :=
          toNat_byte (by omega)
        have hsecond := outside_byte (Nat.mod_lt (v / 4096) (by decide : 0 < 64)) hlow hhigh
        rw [List.cons_append, List.cons_append, List.cons_append, List.cons_append,
          decodeFrom_four (not_ascii_byte (by omega) (by omega)) hlead hsecond rfl
            (isTail_byte (Nat.mod_lt _ (by decide))) (isTail_byte (Nat.mod_lt _ (by decide))),
          hn, tailBits_byte (Nat.mod_lt _ (by decide)), tailBits_byte (Nat.mod_lt _ (by decide)),
          tailBits_byte (Nat.mod_lt _ (by decide))]
        have hsum : (((v / 262144 % 8 + 0xF0) % 8 * 64 + v / 4096 % 64) * 64 + v / 64 % 64) * 64 +
            v % 64 = v := by omega
        rw [hsum, hc]
        rfl

/-! ## Which bytes a character has -/

theorem encodeChar_of_ascii {c : Char} (h : c.toNat ≤ 0x7F) :
    String.utf8EncodeChar c = [UInt8.ofNat c.toNat] := by
  unfold String.utf8EncodeChar
  exact if_pos h

/-- No byte of a longer character is an ASCII character. -/
theorem high_of_mem_encodeChar {c : Char} (h : 0x7F < c.toNat) {b : UInt8}
    (hb : b ∈ String.utf8EncodeChar c) : 0x80 ≤ b.toNat := by
  have hvalid := toNat_valid c
  have hhigh : ∀ n : Nat, 0x80 ≤ n → n < 256 → 0x80 ≤ (UInt8.ofNat n).toNat := by
    intro n hlow hn
    rw [toNat_byte hn]
    exact hlow
  unfold String.utf8EncodeChar at hb
  change 0x7F < c.val.toNat at h
  generalize c.val.toNat = v at hvalid h hb
  dsimp only at hb
  rw [if_neg (by omega)] at hb
  split at hb
  · simp only [List.mem_cons, List.not_mem_nil, or_false] at hb
    rcases hb with rfl | rfl <;> exact hhigh _ (by omega) (by omega)
  · split at hb
    · simp only [List.mem_cons, List.not_mem_nil, or_false] at hb
      rcases hb with rfl | rfl | rfl <;> exact hhigh _ (by omega) (by omega)
    · simp only [List.mem_cons, List.not_mem_nil, or_false] at hb
      rcases hb with rfl | rfl | rfl | rfl <;> exact hhigh _ (by omega) (by omega)

/-! ## Whole texts -/

theorem decodeFrom_encodeChars (i : Nat) (cs : List Char) :
    decodeFrom i (encodeChars cs) = .ok cs := by
  induction cs generalizing i with
  | nil => rfl
  | cons c cs ih =>
    rw [encodeChars_cons, decodeFrom_encodeChar, ih]
    rfl

/-- Decoding gives back every text that was encoded. -/
theorem decode_encode (s : String) : decode (encode s) = .ok s := by
  rw [decode, encode, decodeFrom_encodeChars]
  show Except.ok (String.ofList s.toList) = Except.ok s
  rw [String.ofList_toList]

theorem encode_injective {s t : String} (h : encode s = encode t) : s = t := by
  have hdecode := decode_encode s
  rw [h, decode_encode] at hdecode
  exact (Except.ok.inj hdecode).symm

/-! ## Encoding again -/

theorem toNat_ofNat {n : Nat} (h : n < 0xD800 ∨ (0xDFFF < n ∧ n < 0x110000)) :
    (Char.ofNat n).val.toNat = n := by
  have hn : n.isValidChar := h
  rw [Char.ofNat, dif_pos hn]
  rfl

/-- The bounds on the lead byte and the second byte of two, three and four. -/
theorem bounds_of_lead? {b : UInt8} {l : Lead} (h : lead? b = some l) :
    (l.more = 0 ∧ 0xC2 ≤ b.toNat ∧ b.toNat ≤ 0xDF ∧ 0x80 ≤ l.low.toNat ∧ l.high.toNat ≤ 0xBF) ∨
    (l.more = 1 ∧ 0xE0 ≤ b.toNat ∧ b.toNat ≤ 0xEF ∧ 0x80 ≤ l.low.toNat ∧ l.high.toNat ≤ 0xBF ∧
      (b.toNat = 0xE0 → 0xA0 ≤ l.low.toNat) ∧ (b.toNat = 0xED → l.high.toNat ≤ 0x9F)) ∨
    (l.more = 2 ∧ 0xF0 ≤ b.toNat ∧ b.toNat ≤ 0xF4 ∧ 0x80 ≤ l.low.toNat ∧ l.high.toNat ≤ 0xBF ∧
      (b.toNat = 0xF0 → 0x90 ≤ l.low.toNat) ∧ (b.toNat = 0xF4 → l.high.toNat ≤ 0x8F)) := by
  rw [lead?_of_toNat rfl] at h
  repeat' split at h
  all_goals cases h
  all_goals simp only [UInt8.reduceToNat, true_and]
  all_goals omega

theorem byte_eq {n : Nat} {b : UInt8} (h : n = b.toNat) : UInt8.ofNat n = b := by
  rw [h, UInt8.ofNat_toNat]

theorem bounds_of_inside {c low high : UInt8} (h : ¬ (c < low || high < c) = true) :
    low.toNat ≤ c.toNat ∧ c.toNat ≤ high.toNat := by
  simpa only [Bool.or_eq_true, decide_eq_true_eq, not_or, UInt8.lt_iff_toNat_lt, Nat.not_lt] using h

theorem bounds_of_isTail {d : UInt8} (h : ¬ (!isTail d) = true) :
    0x80 ≤ d.toNat ∧ d.toNat ≤ 0xBF := by
  simpa [isTail, UInt8.le_iff_toNat_le] using h

theorem encodeChar_one {b : UInt8} (hb : b < 0x80) :
    String.utf8EncodeChar (Char.ofNat b.toNat) = [b] := by
  have hlt : b.toNat < 0x80 := UInt8.lt_iff_toNat_lt.mp hb
  have hvalue : (Char.ofNat b.toNat).toNat = b.toNat := toNat_ofNat (by omega)
  rw [encodeChar_of_ascii (by omega), hvalue, UInt8.ofNat_toNat]

section Encoded

variable {b c d e : UInt8} {l : Lead} (hl : lead? b = some l)
  (hc : ¬ (c < l.low || l.high < c) = true)

include hl hc

theorem encodeChar_two (hmore : l.more = 0) :
    String.utf8EncodeChar (Char.ofNat (b.toNat % 32 * 64 + tailBits c)) = [b, c] := by
  have hlead := bounds_of_lead? hl
  have hbounds := bounds_of_inside hc
  unfold String.utf8EncodeChar tailBits
  rw [toNat_ofNat (by omega)]
  dsimp only
  rw [if_neg (by omega), if_pos (by omega)]
  congr 1
  · exact byte_eq (by omega)
  · congr 1
    exact byte_eq (by omega)

theorem encodeChar_three (hmore : l.more = 1) (hd : ¬ (!isTail d) = true) :
    String.utf8EncodeChar
      (Char.ofNat ((b.toNat % 16 * 64 + tailBits c) * 64 + tailBits d)) = [b, c, d] := by
  have hlead := bounds_of_lead? hl
  have hbounds := bounds_of_inside hc
  have hthird := bounds_of_isTail hd
  unfold String.utf8EncodeChar tailBits
  rw [toNat_ofNat (by omega)]
  dsimp only
  rw [if_neg (by omega), if_neg (by omega), if_pos (by omega)]
  congr 1
  · exact byte_eq (by omega)
  · congr 1
    · exact byte_eq (by omega)
    · congr 1
      exact byte_eq (by omega)

theorem encodeChar_four (hzero : l.more ≠ 0) (hone : l.more ≠ 1) (hd : ¬ (!isTail d) = true)
    (he : ¬ (!isTail e) = true) :
    String.utf8EncodeChar (Char.ofNat
      (((b.toNat % 8 * 64 + tailBits c) * 64 + tailBits d) * 64 + tailBits e)) = [b, c, d, e] := by
  have hlead := bounds_of_lead? hl
  have hbounds := bounds_of_inside hc
  have hthird := bounds_of_isTail hd
  have hfourth := bounds_of_isTail he
  unfold String.utf8EncodeChar tailBits
  rw [toNat_ofNat (by omega)]
  dsimp only
  rw [if_neg (by omega), if_neg (by omega), if_neg (by omega)]
  congr 1
  · exact byte_eq (by omega)
  · congr 1
    · exact byte_eq (by omega)
    · congr 1
      · exact byte_eq (by omega)
      · congr 1
        exact byte_eq (by omega)

end Encoded

/-- One character more of a text that is decoded. -/
theorem encodeChars_of_decoded {i n : Nat} {bs rest : List UInt8} {cs : List Char}
    (h : (decodeFrom i rest).map (Char.ofNat n :: ·) = .ok cs)
    (hchar : String.utf8EncodeChar (Char.ofNat n) = bs)
    (ih : ∀ {ds}, decodeFrom i rest = .ok ds → encodeChars ds = rest) :
    encodeChars cs = bs ++ rest := by
  cases hrest : decodeFrom i rest with
  | error fault =>
    rw [hrest] at h
    cases h
  | ok ds =>
    rw [hrest] at h
    cases h
    rw [encodeChars_cons, hchar, ih hrest]

theorem encodeChars_of_decodeFrom {i : Nat} {bs : List UInt8} {cs : List Char}
    (h : decodeFrom i bs = .ok cs) : encodeChars cs = bs := by
  fun_induction decodeFrom i bs generalizing cs with
  | case1 =>
    cases h
    rfl
  | case2 i b rest hb ih =>
    exact encodeChars_of_decoded h (encodeChar_one hb) ih
  | case6 i b hb l hl c rest hc hmore ih =>
    exact encodeChars_of_decoded h (encodeChar_two hl hc hmore) ih
  | case9 i b hb l hl c hc hzero d rest hd hmore ih =>
    exact encodeChars_of_decoded h (encodeChar_three hl hc hmore hd) ih
  | case12 i b hb l hl c hc hzero d hd hone e rest he ih =>
    exact encodeChars_of_decoded h (encodeChar_four hl hc hzero hone hd he) ih
  | _ => cases h

/-- Encoding gives back all bytes that were decoded. -/
theorem encode_of_decode {bs : List UInt8} {s : String} (h : decode bs = .ok s) :
    encode s = bs := by
  unfold decode at h
  cases hchars : decodeFrom 0 bs with
  | error fault =>
    rw [hchars] at h
    cases h
  | ok cs =>
    rw [hchars] at h
    cases h
    rw [encode, String.toList_ofList]
    exact encodeChars_of_decodeFrom hchars

/-! ## ASCII -/

theorem decodeFrom_ascii (i : Nat) {bs : List UInt8} (h : ∀ b ∈ bs, b < 0x80) :
    decodeFrom i bs = .ok (bs.map fun b => Char.ofNat b.toNat) := by
  induction bs generalizing i with
  | nil => rfl
  | cons b bs ih =>
    rw [decodeFrom, if_pos (h b List.mem_cons_self),
      ih _ fun x hx => h x (List.mem_cons_of_mem _ hx)]
    rfl

theorem decode_ascii {bs : List UInt8} (h : ∀ b ∈ bs, b < 0x80) :
    decode bs = .ok (String.ofList (bs.map fun b => Char.ofNat b.toNat)) := by
  rw [decode, decodeFrom_ascii 0 h]
  rfl

end Gatehouse.Utf8
