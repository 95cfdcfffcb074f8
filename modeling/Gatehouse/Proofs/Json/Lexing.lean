import Gatehouse.Proofs.Json.Strings

/-!
# Inside and outside of strings

`Lexed inside t` says that `t` can be cut into strings and the code between them when it is read
from the inside or from the outside of a string, and that it ends outside. Only quotes and
backslashes matter for that, so it survives where the syntax is lost: a reader that came to a halt
inside a string takes every later string for code and all code for strings. Its keys are then made
of code, which spells no field's name (`Lexed.of_key`), and the values that it takes leave it on the
wrong side (`Woven.lexed_inside`).
-/

namespace Gatehouse.Json

/-! ## Code -/

/-- The marks and letters that stand between the strings of a text. -/
def codeMarks : List UInt8 :=
  [0x2B, 0x2C, 0x2D, 0x2E, 0x3A, 0x45, 0x5B, 0x5D, 0x61, 0x65, 0x66, 0x6C, 0x6E, 0x72, 0x73, 0x74,
    0x75, 0x7B, 0x7D]

/-- Whether a byte can stand between the strings of a text. -/
def isCode (b : UInt8) : Bool :=
  Byte.isBlank b || Byte.isDigit b || codeMarks.contains b

/-- Nothing but code. -/
def Code (ds : List UInt8) : Prop :=
  ∀ b ∈ ds, isCode b = true

@[simp] theorem code_nil : Code [] := by
  intro b hb
  cases hb

@[simp] theorem code_cons {b : UInt8} {ds : List UInt8} :
    Code (b :: ds) ↔ isCode b = true ∧ Code ds :=
  List.forall_mem_cons

@[simp] theorem code_append {ds es : List UInt8} : Code (ds ++ es) ↔ Code ds ∧ Code es :=
  List.forall_mem_append

theorem code_of_all {ds : List UInt8} (h : ds.all isCode = true) : Code ds :=
  List.all_eq_true.mp h

theorem isCode_of_blank {b : UInt8} (h : Byte.isBlank b = true) : isCode b = true := by
  simp [isCode, h]

theorem isCode_of_digit {b : UInt8} (h : Byte.isDigit b = true) : isCode b = true := by
  simp [isCode, h]

theorem Blanks.code {w : List UInt8} (h : Blanks w) : Code w :=
  fun b hb => isCode_of_blank (h b hb)

theorem Digits.code {ds : List UInt8} (h : Digits ds) : Code ds :=
  fun b hb => isCode_of_digit (h b hb)

theorem Magnitude.code {m : List UInt8} (h : Magnitude m) : Code m := by
  obtain ⟨w, f, e, rfl, hw, hf, he⟩ := h
  have hwhole : Code w := by
    cases hw with
    | zero => exact code_of_all rfl
    | run hb _ hds => exact code_cons.mpr ⟨isCode_of_digit hb, hds.code⟩
  have hfraction : Code f := by
    cases hf with
    | none => exact code_nil
    | some _ hds => exact code_cons.mpr ⟨rfl, hds.code⟩
  have hexponent : Code e := by
    cases he with
    | none => exact code_nil
    | some hmark hsign _ hds =>
      rw [code_cons, code_append]
      refine ⟨?_, ?_, hds.code⟩
      · rcases hmark with rfl | rfl <;> rfl
      · rcases hsign with rfl | rfl | rfl
        · exact code_nil
        · exact code_of_all rfl
        · exact code_of_all rfl
  simp [hwhole, hfraction, hexponent]

/-- What is known of a byte of code from its number. -/
theorem code_byte {b : UInt8} (h : isCode b = true) :
    b ≠ Byte.quote ∧ b ≠ Byte.backslash ∧ b < 0x80 ∧
      Char.ofNat b.toNat ∉ ['b', 'd', 'i', 'x'] := by
  have hall : ∀ n < 256, isCode (UInt8.ofNat n) = true →
      UInt8.ofNat n ≠ Byte.quote ∧ UInt8.ofNat n ≠ Byte.backslash ∧ UInt8.ofNat n < 0x80 ∧
        Char.ofNat n ∉ ['b', 'd', 'i', 'x'] := by
    decide +kernel
  have hb := hall b.toNat b.toNat_lt
  rw [UInt8.ofNat_toNat] at hb
  exact hb h

/-! ## Cutting a text into strings and code -/

/-- From the inside or the outside of a string a text can be cut into strings and code. -/
inductive Lexed : Bool → List UInt8 → Prop
  | nil : Lexed false []
  | code {b : UInt8} {t : List UInt8} : isCode b = true → Lexed false t → Lexed false (b :: t)
  | opens {t : List UInt8} : Lexed true t → Lexed false (Byte.quote :: t)
  | plain {b : UInt8} {t : List UInt8} : b ≠ Byte.quote → b ≠ Byte.backslash → Lexed true t →
      Lexed true (b :: t)
  | escape {b : UInt8} {t : List UInt8} : Lexed true t → Lexed true (Byte.backslash :: b :: t)
  | closes {t : List UInt8} : Lexed false t → Lexed true (Byte.quote :: t)

section Lexed

variable {inside : Bool} {b : UInt8} {t ds : List UInt8}

theorem lexed_cons (hb : isCode b = true) : Lexed inside (b :: t) ↔ Lexed inside t := by
  obtain ⟨hquote, hslash, -, -⟩ := code_byte hb
  constructor
  · intro h
    cases h with
    | code _ h => exact h
    | opens => exact absurd rfl hquote
    | plain _ _ h => exact h
    | escape => exact absurd rfl hslash
    | closes => exact absurd rfl hquote
  · intro h
    cases inside with
    | false => exact .code hb h
    | true => exact .plain hquote hslash h

theorem lexed_append (h : Code ds) : Lexed inside (ds ++ t) ↔ Lexed inside t := by
  induction ds with
  | nil => exact Iff.rfl
  | cons b ds ih =>
    rw [code_cons] at h
    rw [List.cons_append, lexed_cons h.1, ih h.2]

theorem lexed_opens : Lexed false (Byte.quote :: t) ↔ Lexed true t := by
  constructor
  · intro h
    cases h with
    | code hb => exact absurd rfl (code_byte hb).1
    | opens h => exact h
  · exact .opens

theorem lexed_closes : Lexed true (Byte.quote :: t) ↔ Lexed false t := by
  constructor
  · intro h
    cases h with
    | plain hquote => exact absurd rfl hquote
    | closes h => exact h
  · exact .closes

end Lexed

/-! ## Strings -/

theorem isPlain_iff {b : UInt8} :
    isPlain b = true ↔ (b ≠ Byte.quote ∧ b ≠ Byte.backslash) ∧ 0x20 ≤ b := by
  simp [isPlain]

theorem not_quote_of_hexOf? {q : List UInt8} {n : Nat} (h : Reader.hexOf? q = some n) :
    ∀ b ∈ q, b ≠ Byte.quote ∧ b ≠ Byte.backslash := by
  have hvalue : ∀ {b : UInt8} {n : Nat}, Byte.hexValue? b = some n →
      b ≠ Byte.quote ∧ b ≠ Byte.backslash := by
    intro b n hb
    constructor
    · rintro rfl
      cases hb
    · rintro rfl
      cases hb
  obtain ⟨x, y, z, w, rfl⟩ := Reader.eq_of_hexOf? h
  simp only [Reader.hexOf?, Option.bind_eq_bind, Option.bind_eq_some_iff] at h
  obtain ⟨_, hx, _, hy, _, hz, _, hw, -⟩ := h
  simp only [List.forall_mem_cons]
  exact ⟨hvalue hx, hvalue hy, hvalue hz, hvalue hw, List.forall_mem_nil _⟩

theorem lexed_plain {ds t : List UInt8} (hds : ∀ b ∈ ds, b ≠ Byte.quote ∧ b ≠ Byte.backslash)
    (ht : Lexed true t) : Lexed true (ds ++ t) := by
  induction ds with
  | nil => exact ht
  | cons b ds ih =>
    rw [List.forall_mem_cons] at hds
    exact .plain hds.1.1 hds.1.2 (ih hds.2)

/-- A string is read to its end from the inside. -/
theorem Inner.lexed {k t : List UInt8} (hk : Inner k) (ht : Lexed false t) :
    Lexed true (k ++ Byte.quote :: t) := by
  induction hk with
  | nil => exact .closes ht
  | plain hb _ ih =>
    have hplain := isPlain_iff.mp hb
    exact .plain hplain.1.1 hplain.1.2 ih
  | letter _ _ ih => exact .escape ih
  | hex hq _ ih =>
    rw [List.cons_append, List.cons_append, List.append_assoc]
    exact .escape (lexed_plain (not_quote_of_hexOf? hq) ih)

/-- A string that is read from the outside is code, and behind it the inside begins. -/
theorem Inner.lexed_inside {k t : List UInt8} (hk : Inner k)
    (h : Lexed false (k ++ Byte.quote :: t)) : Code k ∧ Lexed true t := by
  have hslash : ∀ {t : List UInt8}, ¬ Lexed false (Byte.backslash :: t) := by
    intro t h
    cases h with
    | code hb => exact absurd rfl (code_byte hb).2.1
  induction hk with
  | nil => exact ⟨code_nil, lexed_opens.mp h⟩
  | plain hb _ ih =>
    rw [List.cons_append] at h
    cases h with
    | code hcode h =>
      obtain ⟨hk, ht⟩ := ih h
      exact ⟨code_cons.mpr ⟨hcode, hk⟩, ht⟩
    | opens => exact absurd rfl (isPlain_iff.mp hb).1.1
  | letter => exact absurd h hslash
  | hex => exact absurd h hslash

theorem Denotes.eq_of_code {t bs : List UInt8} (h : Denotes t bs) (ht : Code t) : bs = t := by
  induction h with
  | nil => rfl
  | plain _ _ ih => rw [ih (code_cons.mp ht).2]
  | escape => exact absurd rfl (code_byte (code_cons.mp ht).1).2.1

/-- A key that is read from the inside is made of code. -/
theorem Lexed.of_key {k : String} {q t : List UInt8} (hq : SpellsString k q)
    (h : Lexed true (q ++ t)) :
    (∀ c ∈ k.toList, c ∉ ['b', 'd', 'i', 'x']) ∧ Lexed true t := by
  obtain ⟨u, bs, rfl, hu, hk⟩ := hq
  rw [List.cons_append, List.append_assoc, lexed_closes] at h
  obtain ⟨hcode, ht⟩ := hu.inner.lexed_inside h
  refine ⟨?_, ht⟩
  rw [hu.eq_of_code hcode, Utf8.decode_ascii fun b hb => (code_byte (hcode b hb)).2.2.1] at hk
  cases hk
  intro c hc
  rw [String.toList_ofList] at hc
  obtain ⟨b, hb, rfl⟩ := List.mem_map.mp hc
  exact (code_byte (hcode b hb)).2.2.2

/-! ## Values -/

/-- A text is made of code and of whole strings. -/
inductive Woven : List UInt8 → Prop
  | nil : Woven []
  | code {b : UInt8} {t : List UInt8} : isCode b = true → Woven t → Woven (b :: t)
  | string {k t : List UInt8} : Inner k → Woven t → Woven (Byte.quote :: (k ++ Byte.quote :: t))

theorem Woven.append {u t : List UInt8} (hu : Woven u) (ht : Woven t) : Woven (u ++ t) := by
  induction hu with
  | nil => exact ht
  | code hb _ ih => exact .code hb ih
  | string hk _ ih =>
    rw [List.cons_append, List.append_assoc]
    exact .string hk ih

theorem Code.woven {ds : List UInt8} (h : Code ds) : Woven ds := by
  induction ds with
  | nil => exact .nil
  | cons b ds ih =>
    rw [code_cons] at h
    exact .code h.1 (ih h.2)

theorem woven_of_spells {f : Form} {u : List UInt8} (hu : Spells f u) : Woven u := by
  induction hu with
  | null => exact (code_of_all rfl).woven
  | true => exact (code_of_all rfl).woven
  | false => exact (code_of_all rfl).woven
  | number hm => exact hm.code.woven
  | negative hm => exact .code rfl hm.code.woven
  | string hk => exact .string hk .nil
  | noItems hw => exact .code rfl (hw.code.woven.append (.code rfl .nil))
  | list hw _ _ ihv iht => exact .code rfl (hw.code.woven.append (ihv.append iht))
  | noMembers hw => exact .code rfl (hw.code.woven.append (.code rfl .nil))
  | object hw _ _ ihm iht => exact .code rfl (hw.code.woven.append (ihm.append iht))
  | closeList hw => exact hw.code.woven.append (.code rfl .nil)
  | item hw hw' _ _ ihv iht =>
    exact hw.code.woven.append (.code rfl (hw'.code.woven.append (ihv.append iht)))
  | pair hk hw hw' _ ihv =>
    exact .string hk (hw.code.woven.append (.code rfl (hw'.code.woven.append ihv)))
  | closeObject hw => exact hw.code.woven.append (.code rfl .nil)
  | member hw hw' _ _ ihm iht =>
    exact hw.code.woven.append (.code rfl (hw'.code.woven.append (ihm.append iht)))

/-- From the outside a woven text is read to its end. -/
theorem Woven.lexed {u t : List UInt8} (hu : Woven u) (ht : Lexed false t) :
    Lexed false (u ++ t) := by
  induction hu with
  | nil => exact ht
  | code hb _ ih => exact .code hb ih
  | string hk _ ih =>
    rw [List.cons_append, List.append_assoc]
    exact .opens (hk.lexed ih)

/-- From the inside a woven text has all its strings closed and opened again. -/
theorem Woven.lexed_inside {u t : List UInt8} (hu : Woven u) (h : Lexed true (u ++ t)) :
    Lexed true t := by
  induction hu with
  | nil => exact h
  | code hb _ ih => exact ih ((lexed_cons hb).mp h)
  | string hk _ ih =>
    rw [List.cons_append, List.append_assoc, lexed_closes] at h
    exact ih (hk.lexed_inside h).2

end Gatehouse.Json
