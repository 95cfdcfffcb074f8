import Gatehouse.Codec.Base64Url
import Gatehouse.Text.Blank

/-!
# Encoding and decoding base 64

Decoding gives back the bytes that were encoded (`Base64Url.decode_encode`), and the symbols of an
encoded text are neither points nor white space, so that a text of several parts can be cut at its
points and trimmed without touching a part.
-/

namespace Gatehouse.Base64Url

/-! ## Symbols -/

/-- The byte of a symbol stands for the number of the symbol. -/
theorem value?_symbol {n : Nat} (h : n < 64) :
    ∃ b, String.utf8EncodeChar (symbol n) = [b] ∧ value? b = some n ∧ b ≠ pad := by
  have hall : ∀ n < 64, String.utf8EncodeChar (symbol n) = [(symbol n).toNat.toUInt8] ∧
      value? (symbol n).toNat.toUInt8 = some n ∧ (symbol n).toNat.toUInt8 ≠ pad := by
    decide +kernel
  exact ⟨_, hall n h⟩

theorem symbol_not_blank {n : Nat} (h : n < 64) : Text.isBlank (symbol n) = false := by
  have hall : ∀ n < 64, Text.isBlank (symbol n) = false := by decide +kernel
  exact hall n h

theorem symbol_ne_point {n : Nat} (h : n < 64) : symbol n ≠ '.' := by
  have hall : ∀ n < 64, symbol n ≠ '.' := by decide +kernel
  exact hall n h

theorem eq_symbol_of_mem {bs : List UInt8} {c : Char} (h : c ∈ encodeChars bs) :
    ∃ n, n < 64 ∧ c = symbol n := by
  induction bs using encodeChars.induct with
  | case1 => cases h
  | case2 a =>
    have ha := a.toNat_lt
    simp only [encodeChars, List.mem_cons, List.not_mem_nil, or_false] at h
    rcases h with h | h <;> exact ⟨_, by omega, h⟩
  | case3 a b =>
    have ha := a.toNat_lt
    have hb := b.toNat_lt
    simp only [encodeChars, List.mem_cons, List.not_mem_nil, or_false] at h
    rcases h with h | h | h <;> exact ⟨_, by omega, h⟩
  | case4 a b c rest ih =>
    have ha := a.toNat_lt
    have hb := b.toNat_lt
    have hc := c.toNat_lt
    simp only [encodeChars, List.mem_cons] at h
    rcases h with h | h | h | h | h
    · exact ⟨_, by omega, h⟩
    · exact ⟨_, by omega, h⟩
    · exact ⟨_, by omega, h⟩
    · exact ⟨_, by omega, h⟩
    · exact ih h

theorem point_not_mem_encode (bs : List UInt8) : '.' ∉ (encode bs).toList := by
  intro h
  rw [encode, String.toList_ofList] at h
  obtain ⟨n, hn, heq⟩ := eq_symbol_of_mem h
  exact symbol_ne_point hn heq.symm

theorem not_blank_of_mem_encode {bs : List UInt8} {c : Char} (h : c ∈ (encode bs).toList) :
    Text.isBlank c = false := by
  rw [encode, String.toList_ofList] at h
  obtain ⟨n, hn, rfl⟩ := eq_symbol_of_mem h
  exact symbol_not_blank hn

/-! ## Groups -/

section Group

variable {start : Nat} {p q r s : UInt8} {v w x y : Nat}

theorem valueAt_of_value? {i : Nat} (hp : value? p = some v) : valueAt i p = .ok v := by
  rw [valueAt, hp]

theorem lastValues_cons {i : Nat} {rest : List UInt8} {ns : List Nat} (hp : value? p = some v)
    (hpad : p ≠ pad) (hrest : lastValues start (i + 1) rest = .ok (ns, false)) :
    lastValues start i (p :: rest) = .ok (v :: ns, false) := by
  rw [lastValues, if_neg (fun h => hpad h.1), valueAt_of_value? hp, hrest]
  rfl

variable (hp : value? p = some v) (hq : value? q = some w) (hp' : p ≠ pad) (hq' : q ≠ pad)

include hp hq hp' hq'

theorem decodeFrom_two (hspare : w % 16 = 0) :
    decodeFrom start [p, q] = .ok [(v * 4 + w / 16).toUInt8] := by
  have hvalues : lastValues start 0 [p, q] = .ok ([v, w], false) :=
    lastValues_cons hp hp' (lastValues_cons hq hq' rfl)
  show decodeLast start [p, q] = _
  rw [decodeLast, hvalues]
  show lastBytes start [p, q] [v, w] = _
  rw [lastBytes, if_pos hspare]

variable (hr : value? r = some x) (hr' : r ≠ pad)

include hr hr'

theorem decodeFrom_three (hspare : x % 4 = 0) :
    decodeFrom start [p, q, r] =
      .ok [(((v * 64 + w) * 64 + x) / 1024).toUInt8,
        (((v * 64 + w) * 64 + x) / 4 % 256).toUInt8] := by
  have hvalues : lastValues start 0 [p, q, r] = .ok ([v, w, x], false) :=
    lastValues_cons hp hp' (lastValues_cons hq hq' (lastValues_cons hr hr' rfl))
  show decodeLast start [p, q, r] = _
  rw [decodeLast, hvalues]
  show lastBytes start [p, q, r] [v, w, x] = _
  rw [lastBytes, if_pos hspare]

/-- Four symbols are three bytes, whether or not more follow. -/
theorem decodeFrom_four {rest bytes : List UInt8} (hs : value? s = some y) (hs' : s ≠ pad)
    (hrest : decodeFrom (start + 4) rest = .ok bytes) :
    decodeFrom start (p :: q :: r :: s :: rest) =
      .ok ((((((v * 64 + w) * 64 + x) * 64 + y) / 65536).toUInt8) ::
        ((((v * 64 + w) * 64 + x) * 64 + y) / 256 % 256).toUInt8 ::
        ((((v * 64 + w) * 64 + x) * 64 + y) % 256).toUInt8 :: bytes) := by
  cases rest with
  | nil =>
    have hvalues : lastValues start 0 [p, q, r, s] = .ok ([v, w, x, y], false) :=
      lastValues_cons hp hp'
        (lastValues_cons hq hq' (lastValues_cons hr hr' (lastValues_cons hs hs' rfl)))
    cases hrest
    show decodeLast start [p, q, r, s] = _
    rw [decodeLast, hvalues]
    rfl
  | cons t rest =>
    rw [decodeFrom, valueAt_of_value? hp, valueAt_of_value? hq, valueAt_of_value? hr,
      valueAt_of_value? hs, hrest]
    rfl

end Group

/-! ## Whole texts -/

theorem toUInt8_of_eq {n : Nat} {b : UInt8} (h : n = b.toNat) : n.toUInt8 = b := by
  subst h
  exact UInt8.ofNat_toNat

theorem decodeFrom_encodeChars (start : Nat) (bs : List UInt8) :
    decodeFrom start (Utf8.encodeChars (encodeChars bs)) = .ok bs := by
  induction bs using encodeChars.induct generalizing start with
  | case1 => rfl
  | case2 a =>
    have ha := a.toNat_lt
    obtain ⟨p, hp, hpv, hp'⟩ := value?_symbol (show a.toNat * 16 / 64 < 64 by omega)
    obtain ⟨q, hq, hqv, hq'⟩ := value?_symbol (show a.toNat * 16 % 64 < 64 by omega)
    simp only [encodeChars, Utf8.encodeChars_cons, hp, hq, Utf8.encodeChars_nil, List.cons_append,
      List.nil_append]
    rw [decodeFrom_two hpv hqv hp' hq' (by omega), toUInt8_of_eq (b := a) (by omega)]
  | case3 a b =>
    have ha := a.toNat_lt
    have hb := b.toNat_lt
    generalize hm : (a.toNat * 256 + b.toNat) * 4 = m
    obtain ⟨p, hp, hpv, hp'⟩ := value?_symbol (show m / 4096 < 64 by omega)
    obtain ⟨q, hq, hqv, hq'⟩ := value?_symbol (show m / 64 % 64 < 64 by omega)
    obtain ⟨r, hr, hrv, hr'⟩ := value?_symbol (show m % 64 < 64 by omega)
    simp only [encodeChars, hm, Utf8.encodeChars_cons, hp, hq, hr, Utf8.encodeChars_nil,
      List.cons_append, List.nil_append]
    have hjoin : (m / 4096 * 64 + m / 64 % 64) * 64 + m % 64 = m := by omega
    rw [decodeFrom_three hpv hqv hp' hq' hrv hr' (by omega), hjoin,
      toUInt8_of_eq (b := a) (by omega), toUInt8_of_eq (b := b) (by omega)]
  | case4 a b c rest ih =>
    have ha := a.toNat_lt
    have hb := b.toNat_lt
    have hc := c.toNat_lt
    generalize hm : (a.toNat * 256 + b.toNat) * 256 + c.toNat = m
    obtain ⟨p, hp, hpv, hp'⟩ := value?_symbol (show m / 262144 < 64 by omega)
    obtain ⟨q, hq, hqv, hq'⟩ := value?_symbol (show m / 4096 % 64 < 64 by omega)
    obtain ⟨r, hr, hrv, hr'⟩ := value?_symbol (show m / 64 % 64 < 64 by omega)
    obtain ⟨s, hs, hsv, hs'⟩ := value?_symbol (show m % 64 < 64 by omega)
    simp only [encodeChars, hm, Utf8.encodeChars_cons, hp, hq, hr, hs, List.cons_append,
      List.nil_append]
    have hjoin : ((m / 262144 * 64 + m / 4096 % 64) * 64 + m / 64 % 64) * 64 + m % 64 = m := by
      omega
    rw [decodeFrom_four hpv hqv hp' hq' hrv hr' hsv hs' (ih (start + 4)), hjoin,
      toUInt8_of_eq (b := a) (by omega), toUInt8_of_eq (b := b) (by omega),
      toUInt8_of_eq (b := c) (by omega)]

/-- Every byte of an encoded text is a symbol. -/
theorem value?_of_mem_encode {bs : List UInt8} {b : UInt8} (h : b ∈ Utf8.encode (encode bs)) :
    value? b ≠ none := by
  rw [Utf8.encode, encode, String.toList_ofList, Utf8.encodeChars, List.mem_flatMap] at h
  obtain ⟨c, hc, hb⟩ := h
  obtain ⟨n, hn, rfl⟩ := eq_symbol_of_mem hc
  obtain ⟨p, hp, hpv, -⟩ := value?_symbol hn
  rw [hp, List.mem_singleton] at hb
  rw [hb, hpv]
  exact Option.some_ne_none n

theorem strayEnd?_encode (bs : List UInt8) : strayEnd? (Utf8.encode (encode bs)) = none := by
  rw [strayEnd?]
  split
  · cases hlast : (Utf8.encode (encode bs)).getLast? with
    | none => rfl
    | some b =>
      have hvalue := value?_of_mem_encode (List.mem_of_getLast? hlast)
      show (if b ≠ pad ∧ value? b = none then _ else none) = none
      rw [if_neg (fun h => hvalue h.2)]
  · rfl

/-- Decoding gives back the bytes that were encoded. -/
theorem decode_encode (bs : List UInt8) : decode (encode bs) = .ok bs := by
  rw [decode, strayEnd?_encode]
  show decodeFrom 0 (Utf8.encode (encode bs)) = .ok bs
  rw [Utf8.encode, encode, String.toList_ofList, decodeFrom_encodeChars]

end Gatehouse.Base64Url
