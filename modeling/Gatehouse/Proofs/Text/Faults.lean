import Gatehouse.Proofs.Text.Utf8

/-!
# Where bytes stop being UTF-8

What is wrong with bytes that are no text, said of the encoder alone. Bytes are `Begun` if they are
the start of a character and not all of it. A fault `Breaks` some bytes if it stands behind the
longest text with which they start, has no span if all that follows is begun, and otherwise spans
the maximal ill-formed subpart there. Main statement: the decoder reports the one fault that breaks
the bytes (`Utf8.decode_eq_error_iff`).
-/

namespace Gatehouse.Utf8

/-- Whether some bytes are the start of a character and not all of it. -/
def Begun (bs : List UInt8) : Prop :=
  ∃ c, bs <+: String.utf8EncodeChar c ∧ bs ≠ String.utf8EncodeChar c

/-- The length of the maximal ill-formed subpart at the start of some bytes: of the longest start of
a character there, and one where not even the first byte starts a character. -/
structure Subpart (bs : List UInt8) (n : Nat) : Prop where
  pos : 0 < n
  within : n ≤ bs.length
  begun : n = 1 ∨ Begun (bs.take n)
  longest : ∀ m, n < m → m ≤ bs.length → ¬ Begun (bs.take m)

/-- What is wrong with bytes that start with no character. -/
structure IllFormed (bs : List UInt8) (span : Option Nat) : Prop where
  incomplete : span = none ↔ Begun bs
  subpart : ∀ n, span = some n → n ≤ 3 ∧ Subpart bs n

/-- What is wrong with bytes that are no text. -/
structure Breaks (bs : List UInt8) (f : Fault) : Prop where
  within : f.index < bs.length
  /-- Up to the fault the bytes are a text. -/
  text : ∃ s, encode s = bs.take f.index
  /-- They do not start with a longer one. -/
  longest : ∀ s, encode s <+: bs → (encode s).length ≤ f.index
  behind : IllFormed (bs.drop f.index) f.span

/-! ## The bytes of a character -/

/-- Whether a lead byte lets a byte stand behind it. -/
def Lead.Allows (l : Lead) (c : UInt8) : Prop :=
  ¬ (c < l.low || l.high < c) = true

/-- The sequences of bytes that meet the demands of their lead byte. -/
inductive Sequence : List UInt8 → Prop
  | one {b : UInt8} (hb : b < 0x80) : Sequence [b]
  | two {b c : UInt8} {l : Lead} (hb : ¬ b < 0x80) (hl : lead? b = some l) (hc : l.Allows c)
      (hmore : l.more = 0) : Sequence [b, c]
  | three {b c d : UInt8} {l : Lead} (hb : ¬ b < 0x80) (hl : lead? b = some l) (hc : l.Allows c)
      (hmore : l.more = 1) (hd : isTail d = true) : Sequence [b, c, d]
  | four {b c d e : UInt8} {l : Lead} (hb : ¬ b < 0x80) (hl : lead? b = some l) (hc : l.Allows c)
      (hmore : l.more = 2) (hd : isTail d = true) (he : isTail e = true) : Sequence [b, c, d, e]

theorem more_cases {b : UInt8} {l : Lead} (hl : lead? b = some l) :
    l.more = 0 ∨ l.more = 1 ∨ l.more = 2 := by
  obtain ⟨h, -⟩ | ⟨h, -⟩ | ⟨h, -⟩ := bounds_of_lead? hl
  · exact .inl h
  · exact .inr (.inl h)
  · exact .inr (.inr h)

/-- A lead byte lets at least one byte stand behind it. -/
theorem allows_low {b : UInt8} {l : Lead} (hl : lead? b = some l) : l.Allows l.low := by
  have hle : l.low ≤ l.high := by
    rw [lead?_of_toNat rfl] at hl
    repeat' split at hl
    all_goals cases hl
    all_goals decide
  simp only [Lead.Allows, Bool.or_eq_true, decide_eq_true_eq, UInt8.lt_irrefl, false_or]
  exact UInt8.not_lt.mpr hle

theorem isTail_of_not {d : UInt8} (h : ¬ (!isTail d) = true) : isTail d = true := by
  simpa using h

theorem eq_nil_of_decoded {i : Nat} {bs : List UInt8} {c d : Char}
    (h : (decodeFrom i bs).map (d :: ·) = .ok [c]) : bs = [] := by
  cases hbs : decodeFrom i bs with
  | error f =>
    rw [hbs] at h
    cases h
  | ok cs =>
    rw [hbs] at h
    obtain rfl : cs = [] := (List.cons.inj (Except.ok.inj h)).2
    exact (encodeChars_of_decodeFrom hbs).symm

/-- What the decoder takes for one character meets the demands of its lead byte. -/
theorem sequence_of_decodeFrom {i : Nat} {bs : List UInt8} {c : Char}
    (h : decodeFrom i bs = .ok [c]) : Sequence bs := by
  fun_induction decodeFrom i bs generalizing c with
  | case2 i b rest hb =>
    obtain rfl := eq_nil_of_decoded h
    exact .one hb
  | case6 i b hb l hl c rest hc hmore =>
    obtain rfl := eq_nil_of_decoded h
    exact .two hb hl hc hmore
  | case9 i b hb l hl c hc hzero d rest hd hmore =>
    obtain rfl := eq_nil_of_decoded h
    exact .three hb hl hc hmore (isTail_of_not hd)
  | case12 i b hb l hl c hc hzero d hd hone e rest he =>
    obtain rfl := eq_nil_of_decoded h
    obtain hmore | hmore | hmore := more_cases hl
    · exact absurd hmore hzero
    · exact absurd hmore hone
    · exact .four hb hl hc hmore (isTail_of_not hd) (isTail_of_not he)
  | _ => cases h

theorem sequence_encodeChar (c : Char) : Sequence (String.utf8EncodeChar c) := by
  have h := decodeFrom_encodeChar 0 c []
  rw [List.append_nil] at h
  exact sequence_of_decodeFrom h

/-- Every sequence that meets the demands of its lead byte is a character. -/
theorem Sequence.exists_char {bs : List UInt8} (h : Sequence bs) :
    ∃ c, String.utf8EncodeChar c = bs := by
  cases h with
  | one hb => exact ⟨_, encodeChar_one hb⟩
  | two hb hl hc hmore => exact ⟨_, encodeChar_two hl hc hmore⟩
  | three hb hl hc hmore hd => exact ⟨_, encodeChar_three hl hc hmore (by simpa using hd)⟩
  | four hb hl hc hmore hd he =>
    exact ⟨_, encodeChar_four hl hc (by omega) (by omega) (by simpa using hd) (by simpa using he)⟩

/-! ## Begun characters -/

namespace Begun

variable {b c d : UInt8} {l : Lead} {p q : List UInt8}

theorem iff_sequence : Begun p ↔ ∃ q, Sequence q ∧ p <+: q ∧ p ≠ q := by
  constructor
  · rintro ⟨c, hp, hne⟩
    exact ⟨_, sequence_encodeChar c, hp, hne⟩
  · rintro ⟨q, hq, hp, hne⟩
    obtain ⟨c, rfl⟩ := hq.exists_char
    exact ⟨c, hp, hne⟩

theorem of_append (h : Sequence (p ++ d :: q)) : Begun p :=
  iff_sequence.mpr ⟨_, h, List.prefix_append p _, by simp⟩

/-- The start of begun bytes is begun. -/
theorem of_start (h : Begun q) (hp : p <+: q) : Begun p := by
  obtain ⟨c, hq, hne⟩ := h
  refine ⟨c, hp.trans hq, ?_⟩
  rintro rfl
  exact hne (hq.eq_of_length_le hp.length_le)

theorem length_le (h : Begun p) : p.length ≤ 3 := by
  obtain ⟨q, hq, hp, hne⟩ := iff_sequence.mp h
  have hlt : p.length < q.length :=
    Nat.lt_of_le_of_ne hp.length_le fun he => hne (hp.eq_of_length he)
  cases hq <;> simp only [List.length_cons, List.length_nil] at hlt <;> omega

/-! What a lead byte and the bytes behind it have to be. -/

theorem exists_lead (h : Begun (b :: p)) : ∃ l, lead? b = some l := by
  obtain ⟨q, hq, hp, hne⟩ := iff_sequence.mp h
  cases hq with
  | one hb =>
    obtain ⟨rfl, hnil⟩ := List.cons_prefix_cons.mp hp
    exact absurd (by rw [List.prefix_nil.mp hnil]) hne
  | two hb hl => exact ⟨_, (List.cons_prefix_cons.mp hp).1 ▸ hl⟩
  | three hb hl => exact ⟨_, (List.cons_prefix_cons.mp hp).1 ▸ hl⟩
  | four hb hl => exact ⟨_, (List.cons_prefix_cons.mp hp).1 ▸ hl⟩

theorem allows (h : Begun (b :: c :: p)) (hl : lead? b = some l) : l.Allows c := by
  obtain ⟨q, hq, hp, -⟩ := iff_sequence.mp h
  cases hq <;> simp only [List.cons_prefix_cons] at hp
  case one => exact absurd hp.2 (by simp)
  all_goals
    obtain ⟨rfl, rfl, -⟩ := hp
    simp_all

theorem isTail (h : Begun (b :: c :: d :: p)) : isTail d = true := by
  obtain ⟨q, hq, hp, -⟩ := iff_sequence.mp h
  cases hq <;> simp_all [List.cons_prefix_cons]

end Begun

/-! Of every lead byte a character is begun, however many of the bytes that it asks for follow. -/

section

variable {b c d : UInt8} {l : Lead} (hb : ¬ b < 0x80) (hl : lead? b = some l)

include hb hl

theorem begun_three (hc : l.Allows c) (hzero : l.more ≠ 0) (hone : l.more ≠ 1)
    (hd : isTail d = true) : Begun [b, c, d] := by
  obtain hmore | hmore | hmore := more_cases hl
  · exact absurd hmore hzero
  · exact absurd hmore hone
  · exact .of_append (p := [b, c, d]) (d := 0x80) (q := [])
      (.four hb hl hc hmore hd (by decide))

theorem begun_two (hc : l.Allows c) (hzero : l.more ≠ 0) : Begun [b, c] := by
  by_cases hmore : l.more = 1
  · exact .of_append (p := [b, c]) (d := 0x80) (q := []) (.three hb hl hc hmore (by decide))
  · exact (begun_three hb hl hc hzero hmore (d := 0x80) (by decide)).of_start ⟨[0x80], rfl⟩

theorem begun_one : Begun [b] := by
  by_cases hmore : l.more = 0
  · exact .of_append (p := [b]) (d := l.low) (q := []) (.two hb hl (allows_low hl) hmore)
  · exact (begun_two hb hl (allows_low hl) hmore).of_start ⟨[l.low], rfl⟩

end

/-! ## Where the decoder stops -/

theorem IllFormed.of_begun {bs : List UInt8} (h : Begun bs) : IllFormed bs none :=
  ⟨iff_of_true rfl h, nofun⟩

/-- The subpart ends where a further byte shows that no character is begun; it is the first byte if
that shows it already. -/
theorem IllFormed.of_not_begun {p : List UInt8} {n : Nat} (hnot : ¬ Begun p) (hpos : 0 < n)
    (hle : n ≤ 3) (hwithin : n ≤ p.length) (hseen : p.length ≤ n + 1)
    (hbegun : n = 1 ∨ Begun (p.take n)) (rest : List UInt8) : IllFormed (p ++ rest) (some n) := by
  have hstart : p <+: p ++ rest := List.prefix_append p rest
  refine ⟨iff_of_false nofun fun h => hnot (h.of_start hstart), ?_⟩
  rintro _ ⟨⟩
  refine ⟨hle, hpos, Nat.le_trans hwithin hstart.length_le, ?_, ?_⟩
  · rwa [List.take_append_of_le_length hwithin]
  · intro m hm _ h
    exact hnot (h.of_start (List.prefix_take_iff.mpr ⟨hstart, by omega⟩))

/-- Where bytes at an offset stop being a text, and what is wrong with them there. -/
def BreaksFrom (i : Nat) (bs : List UInt8) (f : Fault) : Prop :=
  ∃ cs rest, bs = encodeChars cs ++ rest ∧ rest ≠ [] ∧ f.index = i + (encodeChars cs).length ∧
    IllFormed rest f.span

theorem BreaksFrom.here {i : Nat} {b : UInt8} {bs : List UInt8} {span : Option Nat}
    (h : IllFormed (b :: bs) span) : BreaksFrom i (b :: bs) ⟨i, span⟩ :=
  ⟨[], b :: bs, rfl, List.cons_ne_nil b bs, rfl, h⟩

/-- One character more before bytes that stop being a text. -/
theorem BreaksFrom.of_decoded {i n : Nat} {bs rest : List UInt8} {f : Fault}
    (h : (decodeFrom (i + bs.length) rest).map (Char.ofNat n :: ·) = .error f)
    (hchar : String.utf8EncodeChar (Char.ofNat n) = bs)
    (ih : ∀ {g}, decodeFrom (i + bs.length) rest = .error g → BreaksFrom (i + bs.length) rest g) :
    BreaksFrom i (bs ++ rest) f := by
  cases hrest : decodeFrom (i + bs.length) rest with
  | ok ds =>
    rw [hrest] at h
    cases h
  | error g =>
    rw [hrest] at h
    cases h
    obtain ⟨cs, tail, rfl, hne, hindex, htail⟩ := ih hrest
    refine ⟨Char.ofNat n :: cs, tail, ?_, hne, ?_, htail⟩
    · rw [encodeChars_cons, hchar, List.append_assoc]
    · rw [encodeChars_cons, hchar, List.length_append, hindex, Nat.add_assoc]

theorem breaksFrom_of_decodeFrom {i : Nat} {bs : List UInt8} {f : Fault}
    (h : decodeFrom i bs = .error f) : BreaksFrom i bs f := by
  fun_induction decodeFrom i bs generalizing f with
  | case1 => cases h
  | case2 i b rest hb ih => exact .of_decoded h (encodeChar_one hb) ih
  | case3 i b rest hb hl =>
    cases h
    have hnot : ¬ Begun [b] := fun h => by
      obtain ⟨l, hsome⟩ := h.exists_lead
      rw [hl] at hsome
      cases hsome
    exact .here (.of_not_begun hnot (by decide) (by decide) (by simp) (by simp) (.inl rfl) rest)
  | case4 i b hb l hl =>
    cases h
    exact .here (.of_begun (begun_one hb hl))
  | case5 i b hb l hl c rest hc =>
    cases h
    have hnot : ¬ Begun [b, c] := fun h => h.allows hl hc
    exact .here (.of_not_begun hnot (by decide) (by decide) (by simp) (by simp) (.inl rfl) rest)
  | case6 i b hb l hl c rest hc hmore ih =>
    exact .of_decoded h (encodeChar_two hl hc hmore) ih
  | case7 i b hb l hl c hc hzero =>
    cases h
    exact .here (.of_begun (begun_two hb hl hc hzero))
  | case8 i b hb l hl c hc hzero d rest hd =>
    cases h
    have hnot : ¬ Begun [b, c, d] := fun h => by simp [h.isTail] at hd
    exact .here (.of_not_begun (n := 2) hnot (by decide) (by decide) (by simp) (by simp)
      (.inr (begun_two hb hl hc hzero)) rest)
  | case9 i b hb l hl c hc hzero d rest hd hmore ih =>
    exact .of_decoded h (encodeChar_three hl hc hmore hd) ih
  | case10 i b hb l hl c hc hzero d hd hone =>
    cases h
    exact .here (.of_begun (begun_three hb hl hc hzero hone (isTail_of_not hd)))
  | case11 i b hb l hl c hc hzero d hd hone e rest he =>
    cases h
    have hnot : ¬ Begun [b, c, d, e] := fun h => absurd h.length_le (by simp)
    exact .here (.of_not_begun (n := 3) hnot (by decide) (by decide) (by simp) (by simp)
      (.inr (begun_three hb hl hc hzero hone (isTail_of_not hd))) rest)
  | case12 i b hb l hl c hc hzero d hd hone e rest he ih =>
    exact .of_decoded h (encodeChar_four hl hc hzero hone hd he) ih

/-! ## Whole texts -/

theorem decodeFrom_append (i : Nat) (cs : List Char) (rest : List UInt8) :
    decodeFrom i (encodeChars cs ++ rest) =
      (decodeFrom (i + (encodeChars cs).length) rest).map (cs ++ ·) := by
  induction cs generalizing i with
  | nil =>
    show decodeFrom i rest = (decodeFrom i rest).map ([] ++ ·)
    cases decodeFrom i rest <;> rfl
  | cons c cs ih =>
    rw [encodeChars_cons, List.append_assoc, decodeFrom_encodeChar, ih, List.length_append,
      Nat.add_assoc]
    cases decodeFrom _ rest <;> rfl

theorem decode_eq_ok_iff {bs : List UInt8} {s : String} : decode bs = .ok s ↔ encode s = bs := by
  constructor
  · exact encode_of_decode
  · rintro rfl
    exact decode_encode s

/-- What the decoder reports stands behind every text with which the bytes start. -/
theorem length_le_index {s : String} {rest : List UInt8} {f : Fault}
    (h : decodeFrom 0 (encode s ++ rest) = .error f) : (encode s).length ≤ f.index := by
  rw [encode, decodeFrom_append, Nat.zero_add] at h
  cases hrest : decodeFrom (encodeChars s.toList).length rest with
  | ok cs =>
    rw [hrest] at h
    cases h
  | error g =>
    rw [hrest] at h
    cases h
    obtain ⟨cs, tail, -, -, hindex, -⟩ := breaksFrom_of_decodeFrom hrest
    rw [encode, hindex]
    exact Nat.le_add_right _ _

theorem breaks_of_decode {bs : List UInt8} {f : Fault} (h : decode bs = .error f) :
    Breaks bs f := by
  have hchars : decodeFrom 0 bs = .error f := by
    rw [decode] at h
    cases hbs : decodeFrom 0 bs with
    | ok cs =>
      rw [hbs] at h
      cases h
    | error g =>
      rw [hbs] at h
      cases h
      rfl
  have hlongest : ∀ s, encode s <+: bs → (encode s).length ≤ f.index := by
    rintro s ⟨rest, rfl⟩
    exact length_le_index hchars
  obtain ⟨cs, rest, rfl, hne, hindex, hrest⟩ := breaksFrom_of_decodeFrom hchars
  rw [Nat.zero_add] at hindex
  refine ⟨?_, ⟨String.ofList cs, ?_⟩, hlongest, ?_⟩
  · rw [hindex, List.length_append]
    exact Nat.lt_add_of_pos_right (List.length_pos_iff.mpr hne)
  · rw [hindex, List.take_left, encode, String.toList_ofList]
  · rw [hindex, List.drop_left]
    exact hrest

/-! ## One fault -/

theorem Subpart.unique {bs : List UInt8} {n m : Nat} (hn : Subpart bs n) (hm : Subpart bs m) :
    n = m := by
  have hle : ∀ {n m}, Subpart bs n → Subpart bs m → m ≤ n := by
    intro n m hn hm
    refine Nat.not_lt.mp fun hlt => ?_
    rcases hm.begun with hone | hbegun
    · have := hn.pos
      omega
    · exact hn.longest m hlt hm.within hbegun
  exact Nat.le_antisymm (hle hm hn) (hle hn hm)

theorem IllFormed.unique {bs : List UInt8} {s t : Option Nat} (hs : IllFormed bs s)
    (ht : IllFormed bs t) : s = t := by
  cases s with
  | none => exact (ht.incomplete.mpr (hs.incomplete.mp rfl)).symm
  | some n =>
    cases t with
    | none => exact hs.incomplete.mpr (ht.incomplete.mp rfl)
    | some m => rw [(hs.subpart n rfl).2.unique (ht.subpart m rfl).2]

theorem Breaks.unique {bs : List UInt8} {f g : Fault} (hf : Breaks bs f) (hg : Breaks bs g) :
    f = g := by
  have hle : ∀ {f g : Fault}, Breaks bs f → Breaks bs g → f.index ≤ g.index := by
    intro f g hf hg
    obtain ⟨s, hs⟩ := hf.text
    have hlength := hg.longest s (hs ▸ List.take_prefix _ _)
    rwa [hs, List.length_take, Nat.min_eq_left (Nat.le_of_lt hf.within)] at hlength
  obtain ⟨i, s⟩ := f
  obtain ⟨j, t⟩ := g
  obtain rfl : i = j := Nat.le_antisymm (hle hf hg) (hle hg hf)
  obtain rfl : s = t := hf.behind.unique hg.behind
  rfl

/-- Bytes that a fault breaks are no text. -/
theorem Breaks.not_text {bs : List UInt8} {f : Fault} (h : Breaks bs f) (s : String) :
    encode s ≠ bs := by
  rintro rfl
  exact absurd h.within (Nat.not_lt.mpr (h.longest s (List.prefix_refl _)))

/-- The decoder reports the one fault that breaks the bytes. -/
theorem decode_eq_error_iff {bs : List UInt8} {f : Fault} :
    decode bs = .error f ↔ Breaks bs f := by
  constructor
  · exact breaks_of_decode
  · intro h
    cases hbs : decode bs with
    | ok s => exact absurd (encode_of_decode hbs) (h.not_text s)
    | error g => rw [h.unique (breaks_of_decode hbs)]

/-- A character that is cut off behind its second byte, at the end and by another character. -/
example : Breaks [0x41, 0xF0, 0x9F] ⟨1, none⟩ ∧ Breaks [0x41, 0xF0, 0x9F, 0x42] ⟨1, some 2⟩ :=
  ⟨decode_eq_error_iff.mp rfl, decode_eq_error_iff.mp rfl⟩

end Gatehouse.Utf8
