import Gatehouse.Json.Printer
import Gatehouse.Proofs.Decimal.Shortest
import Gatehouse.Proofs.Json.Numbers
import Gatehouse.Proofs.Json.Strings

/-!
# Printed values

What is printed is JSON: every value is written as a text of the grammar, doubles included
(`spells_chars`), and an object is written with its members in their order (`members_chars`).
-/

namespace Gatehouse.Json

/-! ## Numbers -/

section Figures

open Decimal

theorem encodeChar_digit {c : Char} (hc : c.isDigit = true) :
    ∃ b, String.utf8EncodeChar c = [b] ∧ Byte.isDigit b = true ∧ (c ≠ '0' → b ≠ Byte.zero) := by
  have hrange : 0x30 ≤ c.toNat ∧ c.toNat ≤ 0x39 := by
    simp only [Char.isDigit, Bool.and_eq_true, decide_eq_true_eq] at hc
    exact ⟨UInt32.le_iff_toNat_le.mp hc.1, UInt32.le_iff_toNat_le.mp hc.2⟩
  have hbyte : (UInt8.ofNat c.toNat).toNat = c.toNat := Utf8.toNat_byte (by omega)
  refine ⟨UInt8.ofNat c.toNat, Utf8.encodeChar_of_ascii (by omega), ?_, fun hne hzero => ?_⟩
  · simp only [Byte.isDigit, Bool.and_eq_true, decide_eq_true_eq, UInt8.le_iff_toNat_le, hbyte]
    exact hrange
  · rw [hzero] at hbyte
    exact hne (Char.toNat_inj.mp hbyte.symm)

theorem digits_encodeChars {cs : List Char} (h : ∀ c ∈ cs, c.isDigit = true) :
    Digits (Utf8.encodeChars cs) := by
  intro b hb
  obtain ⟨c, hc, hbc⟩ := List.mem_flatMap.mp hb
  obtain ⟨x, hx, hdigit, -⟩ := encodeChar_digit (h c hc)
  rw [hx, List.mem_singleton] at hbc
  rw [hbc]
  exact hdigit

theorem encodeChars_ne_nil {c : Char} {cs : List Char} (h : c.isDigit = true) :
    Utf8.encodeChars (c :: cs) ≠ [] := by
  obtain ⟨b, hb, -⟩ := encodeChar_digit h
  rw [Utf8.encodeChars_cons, hb]
  exact List.cons_ne_nil _ _

/-- Digits without a zero in front are the whole part of a number. -/
theorem whole_encodeChars {c : Char} {cs : List Char} (hc : c ≠ '0')
    (h : ∀ d ∈ c :: cs, d.isDigit = true) : Whole (Utf8.encodeChars (c :: cs)) := by
  obtain ⟨b, hb, hdigit, hne⟩ := encodeChar_digit (h c List.mem_cons_self)
  rw [Utf8.encodeChars_cons, hb]
  exact .run hdigit (hne hc) (digits_encodeChars fun d hd => h d (List.mem_cons_of_mem _ hd))

theorem fraction_encodeChars {c : Char} {cs : List Char} (h : ∀ d ∈ c :: cs, d.isDigit = true) :
    Fraction (Utf8.encodeChars ('.' :: c :: cs)) :=
  .some (encodeChars_ne_nil (h c List.mem_cons_self)) (digits_encodeChars h)

theorem isDigit_of_mem_zeros {n : Nat} {d : Char} (h : d ∈ List.replicate n '0') :
    d.isDigit = true := by
  rw [List.eq_of_mem_replicate h]
  rfl

theorem magnitude_positional {f : Figure} (hf : f.Proper) :
    Magnitude (Utf8.encodeChars (positional f)) := by
  obtain ⟨⟨c, cs, hcs, hc⟩, hall⟩ := hf
  have hmagnitude : ∀ {w r : List Char}, Whole (Utf8.encodeChars w) →
      Fraction (Utf8.encodeChars r) → Magnitude (Utf8.encodeChars (w ++ r)) := by
    intro w r hw hr
    exact ⟨_, _, [], by rw [Utf8.encodeChars_append, List.append_nil], hw, hr, .none⟩
  unfold positional
  dsimp only
  split
  · -- below one: zeros stand between the point and the digits
    rw [List.append_assoc]
    refine hmagnitude (w := ['0']) (r := '.' :: (_ ++ f.digits)) .zero ?_
    refine .some ?_ (digits_encodeChars fun d hd => ?_)
    · change Utf8.encodeChars (_ ++ f.digits) ≠ []
      rw [Utf8.encodeChars_append, hcs]
      exact List.append_ne_nil_of_right_ne_nil _
        (encodeChars_ne_nil (hall c (hcs ▸ List.mem_cons_self)))
    · rcases List.mem_append.mp hd with hd | hd
      · exact isDigit_of_mem_zeros hd
      · exact hall d hd
  · split
    · -- zeros stand between the digits and the point
      have hzero : ∀ d ∈ ['0'], d.isDigit = true := List.forall_mem_singleton.mpr rfl
      refine hmagnitude (r := ['.', '0']) ?_ (fraction_encodeChars hzero)
      obtain ⟨ds, hds⟩ : ∃ ds, f.digits ++ List.replicate
          (f.exponent.toNat + 1 - f.digits.length) '0' = c :: ds := ⟨_, by rw [hcs]; rfl⟩
      rw [hds]
      refine whole_encodeChars hc fun d hd => ?_
      rw [← hds] at hd
      rcases List.mem_append.mp hd with hd | hd
      · exact hall d hd
      · exact isDigit_of_mem_zeros hd
    · -- the point stands among the digits
      next hlong =>
      rw [hcs, List.take_succ_cons, List.drop_succ_cons]
      rw [hcs, List.length_cons] at hlong
      rw [hcs] at hall
      obtain ⟨d, ds, hds⟩ : ∃ d ds, cs.drop f.exponent.toNat = d :: ds := by
        refine List.exists_cons_of_ne_nil fun hnil => ?_
        have := List.drop_eq_nil_iff.mp hnil
        omega
      refine hmagnitude (whole_encodeChars hc fun x hx => ?_) ?_
      · rcases List.mem_cons.mp hx with rfl | hx
        · exact hall _ List.mem_cons_self
        · exact hall x (List.mem_cons_of_mem _ (List.mem_of_mem_take hx))
      · rw [hds]
        refine fraction_encodeChars fun x hx => ?_
        rw [← hds] at hx
        exact hall x (List.mem_cons_of_mem _ (List.mem_of_mem_drop hx))

theorem magnitude_exponential {f : Figure} (hf : f.Proper) :
    Magnitude (Utf8.encodeChars (exponential f)) := by
  obtain ⟨⟨c, cs, hcs, hc⟩, hall⟩ := hf
  have hexponent : Exponent (Utf8.encodeChars
      ('e' :: (if f.exponent < 0 then '-' else '+') :: Nat.toDigits 10 f.exponent.natAbs)) := by
    obtain ⟨d, ds, hds⟩ := List.exists_cons_of_ne_nil
      (Nat.toDigits_ne_nil (n := f.exponent.natAbs) (b := 10))
    have hdigits : ∀ x ∈ Nat.toDigits 10 f.exponent.natAbs, x.isDigit = true :=
      fun x hx => Nat.isDigit_of_mem_toDigits (by decide) (by decide) hx
    have hne : Utf8.encodeChars (Nat.toDigits 10 f.exponent.natAbs) ≠ [] := by
      rw [hds]
      exact encodeChars_ne_nil (hdigits d (hds ▸ List.mem_cons_self))
    split
    · change Exponent (Byte.smallE :: ([Byte.minus] ++ _))
      exact .some (.inl rfl) (.inr (.inr rfl)) hne (digits_encodeChars hdigits)
    · change Exponent (Byte.smallE :: ([Byte.plus] ++ _))
      exact .some (.inl rfl) (.inr (.inl rfl)) hne (digits_encodeChars hdigits)
  unfold exponential
  dsimp only
  rw [hcs] at hall ⊢
  cases cs with
  | nil =>
    refine ⟨_, [], _, ?_, whole_encodeChars hc hall, .none, hexponent⟩
    rw [List.nil_append, ← Utf8.encodeChars_append]
  | cons d ds =>
    have hfirst : Whole (Utf8.encodeChars [c]) := by
      refine whole_encodeChars hc fun x hx => ?_
      rw [List.mem_singleton.mp hx]
      exact hall c List.mem_cons_self
    have hrest : ∀ x ∈ d :: ds, x.isDigit = true := fun x hx =>
      hall x (List.mem_cons_of_mem _ hx)
    refine ⟨_, _, _, ?_, hfirst, fraction_encodeChars hrest, hexponent⟩
    rw [← Utf8.encodeChars_append, ← Utf8.encodeChars_append]
    rfl

theorem magnitude_figureChars {f : Figure} (hf : f.Proper) :
    Magnitude (Utf8.encodeChars (figureChars f)) := by
  unfold figureChars
  split
  · exact magnitude_positional hf
  · exact magnitude_exponential hf

end Figures

/-- A double is written as a number, or as `null` where there is none. -/
theorem spells_floatChars (x : Float) : Spells .value (Utf8.encodeChars (floatChars x)) := by
  have hsigned : ∀ {cs : List Char}, Magnitude (Utf8.encodeChars cs) →
      Spells .value (Utf8.encodeChars
        ((if x.toBits = x.toBits &&& 0x7FFFFFFFFFFFFFFF then [] else ['-']) ++ cs)) := by
    intro cs hcs
    split
    · exact .number hcs
    · exact .negative hcs
  unfold floatChars
  dsimp only
  split
  · exact .null
  split
  · exact hsigned ⟨[Byte.zero], [Byte.point, Byte.zero], [], rfl, .zero,
      .some (List.cons_ne_nil _ _) (List.forall_mem_singleton.mpr rfl), .none⟩
  · next hne =>
    have hlow : (x.toBits &&& 0x7FFFFFFFFFFFFFFF).toNat < 0x8000000000000000 := by
      rw [UInt64.toNat_and]
      exact Nat.lt_of_le_of_lt Nat.and_le_right (by decide)
    exact hsigned (magnitude_figureChars
      (Decimal.Binary.proper_shortest (Decimal.Binary.mantissa_pos hlow hne)))

theorem spells_numberChars (n : Number) : Spells .value (Utf8.encodeChars n.chars) := by
  cases n with
  | natural n => exact spells_numeral _
  | negative i => exact spells_numeral _
  | float x => exact spells_floatChars x

/-! ## Lists and objects -/

/-- The values of a list are written behind one another, with the closing bracket at the end. -/
theorem exists_items {v : Value} {vs : List Value}
    (h : ∀ x ∈ vs, Spells .value (Utf8.encodeChars x.chars)) :
    ∃ u, Spells .items u ∧
      Utf8.encodeChars (itemChars (v :: vs) ++ [']']) = Utf8.encodeChars v.chars ++ u := by
  induction vs generalizing v with
  | nil => exact ⟨_, .closeList Blanks.nil, by rw [itemChars, Utf8.encodeChars_append]; rfl⟩
  | cons w vs ih =>
    obtain ⟨u, hu, heq⟩ := ih (v := w) fun x hx => h x (List.mem_cons_of_mem _ hx)
    refine ⟨_, .item Blanks.nil Blanks.nil (h w List.mem_cons_self) hu, ?_⟩
    rw [itemChars, List.append_assoc, Utf8.encodeChars_append, List.cons_append,
      Utf8.encodeChars_cons, heq]
    rfl

theorem spells_array {vs : List Value} (h : ∀ x ∈ vs, Spells .value (Utf8.encodeChars x.chars)) :
    Spells .value (Utf8.encodeChars (Value.array vs).chars) := by
  cases vs with
  | nil => exact .noItems Blanks.nil
  | cons v vs =>
    obtain ⟨u, hu, heq⟩ := exists_items (v := v) fun x hx => h x (List.mem_cons_of_mem _ hx)
    rw [Value.chars, List.cons_append, Utf8.encodeChars_cons, heq]
    exact .list Blanks.nil (h v List.mem_cons_self) hu

/-- The members of an object by the texts of their values. -/
def printedMembers (ms : List (String × Value)) : List (String × List UInt8) :=
  ms.map fun m => (m.1, Utf8.encodeChars m.2.chars)

/-- A member is written as its key and its value with a colon between them. -/
theorem member_chars (k : String) {v : List UInt8} (hv : Spells .value v) :
    Member k v (Utf8.encodeChars (stringChars k) ++ Byte.colon :: v) :=
  ⟨_, [], [], rfl, spellsString_stringChars k, Blanks.nil, Blanks.nil, hv⟩

/-- A blank may stand behind the colon. -/
theorem member_spaced (k : String) {v : List UInt8} (hv : Spells .value v) :
    Member k v (Utf8.encodeChars (stringChars k) ++ Byte.colon :: 0x20 :: v) :=
  ⟨_, [], [0x20], rfl, spellsString_stringChars k, Blanks.nil, List.forall_mem_singleton.mpr rfl,
    hv⟩

theorem exists_trail {k : String} {v : Value} {ms : List (String × Value)}
    (h : ∀ m ∈ ms, Spells .value (Utf8.encodeChars m.2.chars)) :
    ∃ u, Trail (printedMembers ms) u ∧
      Utf8.encodeChars (memberChars ((k, v) :: ms) ++ ['\x7d']) =
        (Utf8.encodeChars (stringChars k) ++ Byte.colon :: Utf8.encodeChars v.chars) ++ u := by
  induction ms generalizing k v with
  | nil =>
    refine ⟨_, .close Blanks.nil, ?_⟩
    rw [memberChars, Utf8.encodeChars_append, Utf8.encodeChars_append]
    rfl
  | cons m ms ih =>
    obtain ⟨k', v'⟩ := m
    obtain ⟨u, hu, heq⟩ := ih (k := k') (v := v') fun m hm => h m (List.mem_cons_of_mem _ hm)
    refine ⟨_, .more Blanks.nil Blanks.nil (member_chars k' (h _ List.mem_cons_self)) hu, ?_⟩
    rw [memberChars, List.append_assoc, Utf8.encodeChars_append, List.cons_append,
      List.append_assoc, Utf8.encodeChars_cons, Utf8.encodeChars_append, List.cons_append,
      Utf8.encodeChars_cons, heq, List.append_assoc]
    rfl

theorem members_of_spells {ms : List (String × Value)}
    (h : ∀ m ∈ ms, Spells .value (Utf8.encodeChars m.2.chars)) :
    Members (printedMembers ms) (Utf8.encodeChars (Value.object ms).chars) := by
  cases ms with
  | nil => exact .none Blanks.nil
  | cons m ms =>
    obtain ⟨k, v⟩ := m
    have hrest : ∀ m ∈ ms, Spells .value (Utf8.encodeChars m.2.chars) := fun m hm =>
      h m (List.mem_cons_of_mem _ hm)
    obtain ⟨u, hu, heq⟩ := exists_trail (k := k) (v := v) hrest
    rw [Value.chars, List.cons_append, Utf8.encodeChars_cons, heq]
    exact .some Blanks.nil (member_chars k (h _ List.mem_cons_self)) hu

theorem sizeOf_lt_of_mem_members {ms : List (String × Value)} {m : String × Value} (h : m ∈ ms) :
    sizeOf m.2 < sizeOf (Value.object ms) := by
  have hpair := List.sizeOf_lt_of_mem h
  have hvalue : sizeOf m.2 < sizeOf m := by
    obtain ⟨k, v⟩ := m
    show sizeOf v < sizeOf (k, v)
    rw [Prod.mk.sizeOf_spec]
    omega
  simp only [Value.object.sizeOf_spec]
  omega

/-- Every value is written as a JSON value. -/
theorem spells_chars : (v : Value) → Spells .value (Utf8.encodeChars v.chars)
  | .null => .null
  | .bool true => .true
  | .bool false => .false
  | .number n => spells_numberChars n
  | .string s => (spellsString_stringChars s).spells
  | .array vs => spells_array fun v _ => spells_chars v
  | .object ms => (members_of_spells fun m _ => spells_chars m.2).spells
termination_by v => v
decreasing_by
  · next h => exact Nat.lt_trans (List.sizeOf_lt_of_mem h) (by simp)
  · next h => exact sizeOf_lt_of_mem_members h

theorem Value.encode_render (v : Value) : Utf8.encode v.render = Utf8.encodeChars v.chars := by
  rw [Utf8.encode, Value.render, String.toList_ofList]

/-- An object is written with its members in their order. -/
theorem members_chars (ms : List (String × Value)) :
    Members (printedMembers ms) (Utf8.encode (Value.object ms).render) := by
  rw [Value.encode_render]
  exact members_of_spells fun m _ => spells_chars m.2

/-- A text that is written out, with a blank behind the colon, is an object like any other. -/
theorem members_of_spaced {text k s : String}
    (h : Utf8.encode text = Byte.openBrace :: (Utf8.encodeChars (stringChars k) ++ Byte.colon ::
      0x20 :: (Utf8.encodeChars (stringChars s) ++ [Byte.closeBrace]))) :
    Members [(k, Utf8.encodeChars (stringChars s))] (Utf8.encode text) := by
  have hmember := member_spaced k (spellsString_stringChars s).spells
  have hmembers := Members.some Blanks.nil hmember (.close Blanks.nil)
  simp only [List.nil_append, List.append_assoc, List.cons_append] at hmembers
  rw [h]
  exact hmembers

end Gatehouse.Json
