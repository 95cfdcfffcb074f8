import Gatehouse.Claims

/-!
# The grammar of JSON

What a text must look like, without a reader: strings with the bytes that they stand for, numbers,
and values of any depth. A value is spelled by `Spells .value`; the other forms are the parts of
lists and objects, so that one induction goes through all of them. The bytes between the quotes of a
string need not be UTF-8 unless the string is read as one (`SpellsString`).

`Members` gives an object at the top its members as keys and the texts of their values.
-/

namespace Gatehouse.Json

/-- Nothing but blanks. -/
def Blanks (w : List UInt8) : Prop :=
  ∀ b ∈ w, Byte.isBlank b = true

/-- Nothing but digits. -/
def Digits (ds : List UInt8) : Prop :=
  ∀ b ∈ ds, Byte.isDigit b = true

theorem Blanks.nil : Blanks [] := by
  intro b hb
  cases hb

theorem Blanks.append {w w' : List UInt8} (hw : Blanks w) (hw' : Blanks w') :
    Blanks (w ++ w') := by
  intro b hb
  rcases List.mem_append.mp hb with hb | hb
  · exact hw b hb
  · exact hw' b hb

theorem Blanks.dropWhile_append {w : List UInt8} (hw : Blanks w) (t : List UInt8) :
    (w ++ t).dropWhile Byte.isBlank = t.dropWhile Byte.isBlank :=
  List.dropWhile_append_of_pos hw

theorem Blanks.dropWhile_cons {w : List UInt8} (hw : Blanks w) {b : UInt8}
    (hb : Byte.isBlank b = false) (t : List UInt8) :
    (w ++ b :: t).dropWhile Byte.isBlank = b :: t := by
  rw [hw.dropWhile_append, List.dropWhile_cons_of_neg (by rw [hb]; decide)]

/-- Blanks end where something else starts. -/
theorem Blanks.cons_inj {w w' t t' : List UInt8} {b b' : UInt8} (hw : Blanks w) (hw' : Blanks w')
    (hb : Byte.isBlank b = false) (hb' : Byte.isBlank b' = false)
    (h : w ++ b :: t = w' ++ b' :: t') : b = b' ∧ t = t' := by
  have hdrop := congrArg (List.dropWhile Byte.isBlank) h
  rw [hw.dropWhile_cons hb, hw'.dropWhile_cons hb'] at hdrop
  exact List.cons.inj hdrop

/-- The blanks in front of a text. -/
theorem exists_blanks (t : List UInt8) : ∃ w, Blanks w ∧ t = w ++ t.dropWhile Byte.isBlank := by
  exact ⟨t.takeWhile Byte.isBlank, List.all_eq_true.mp List.all_takeWhile,
    List.takeWhile_append_dropWhile.symm⟩

theorem blanks_of_dropWhile {t : List UInt8} (h : t.dropWhile Byte.isBlank = []) : Blanks t := by
  obtain ⟨w, hw, ht⟩ := exists_blanks t
  rw [h, List.append_nil] at ht
  rw [ht]
  exact hw

/-- No number goes on here: the text ends, or a blank or a closing byte follows. -/
def Ended (t : List UInt8) : Prop :=
  ∀ b, t.head? = some b →
    Byte.isBlank b = true ∨ b = Byte.comma ∨ b = Byte.closeBracket ∨ b = Byte.closeBrace

/-! ## Strings -/

/-- Whether a byte stands for itself in a string. -/
def isPlain (b : UInt8) : Bool :=
  b != Byte.quote && b != Byte.backslash && 0x20 ≤ b

/-- What stands behind the backslash of an escape, and the bytes that the escape is for. -/
inductive Escape : List UInt8 → List UInt8 → Prop
  | letter {b e : UInt8} : Reader.letterEscape? b = some e → Escape [b] [e]
  | hex {q : List UInt8} {n : Nat} : Reader.hexOf? q = some n → n < 0xD800 ∨ 0xDFFF < n →
      Escape (Byte.smallU :: q) (String.utf8EncodeChar (Char.ofNat n))
  | pair {q r : List UInt8} {n m : Nat} : Reader.hexOf? q = some n → 0xD800 ≤ n → n ≤ 0xDBFF →
      Reader.hexOf? r = some m → 0xDC00 ≤ m → m ≤ 0xDFFF →
      Escape (Byte.smallU :: (q ++ Byte.backslash :: Byte.smallU :: r))
        (String.utf8EncodeChar (Char.ofNat ((n - 0xD800) * 0x400 + (m - 0xDC00) + 0x10000)))

/-- What stands between the quotes of a string, and the bytes that it is for. -/
inductive Denotes : List UInt8 → List UInt8 → Prop
  | nil : Denotes [] []
  | plain {b : UInt8} {t bs : List UInt8} : isPlain b = true → Denotes t bs →
      Denotes (b :: t) (b :: bs)
  | escape {x e t bs : List UInt8} : Escape x e → Denotes t bs →
      Denotes (Byte.backslash :: (x ++ t)) (e ++ bs)

/-- What may stand between the quotes of a string that nobody reads. Halves of surrogate pairs may
stand alone there. -/
inductive Inner : List UInt8 → Prop
  | nil : Inner []
  | plain {b : UInt8} {t : List UInt8} : isPlain b = true → Inner t → Inner (b :: t)
  | letter {b e : UInt8} {t : List UInt8} : Reader.letterEscape? b = some e → Inner t →
      Inner (Byte.backslash :: b :: t)
  | hex {q t : List UInt8} {n : Nat} : Reader.hexOf? q = some n → Inner t →
      Inner (Byte.backslash :: Byte.smallU :: (q ++ t))

/-- A text is a string with its quotes. -/
def SpellsString (s : String) (v : List UInt8) : Prop :=
  ∃ t bs, v = Byte.quote :: (t ++ [Byte.quote]) ∧ Denotes t bs ∧ Utf8.decode bs = .ok s

theorem SpellsString.exists_quote {s : String} {q : List UInt8} (hq : SpellsString s q) :
    ∃ u, q = Byte.quote :: u := by
  obtain ⟨u, bs, rfl, -⟩ := hq
  exact ⟨_, rfl⟩

/-! ## Numbers -/

/-- The decimal text of a whole number. -/
def numeral (i : Int) : List UInt8 :=
  Utf8.encodeChars (integerChars i)

/-- The whole part of a number, without needless zeros. -/
inductive Whole : List UInt8 → Prop
  | zero : Whole [Byte.zero]
  | run {b : UInt8} {ds : List UInt8} : Byte.isDigit b = true → b ≠ Byte.zero → Digits ds →
      Whole (b :: ds)

/-- The point of a number with what follows it, if it has one. -/
inductive Fraction : List UInt8 → Prop
  | none : Fraction []
  | some {ds : List UInt8} : ds ≠ [] → Digits ds → Fraction (Byte.point :: ds)

/-- The exponent of a number, if it has one. -/
inductive Exponent : List UInt8 → Prop
  | none : Exponent []
  | some {mark : UInt8} {sign ds : List UInt8} : mark = Byte.smallE ∨ mark = Byte.capitalE →
      sign = [] ∨ sign = [Byte.plus] ∨ sign = [Byte.minus] → ds ≠ [] → Digits ds →
      Exponent (mark :: (sign ++ ds))

/-- A number behind its sign. -/
def Magnitude (t : List UInt8) : Prop :=
  ∃ w f e, t = w ++ (f ++ e) ∧ Whole w ∧ Fraction f ∧ Exponent e

/-! ## Values -/

/-- The parts of a JSON text. `items` and `members` are what stands behind an item of a list or
a member of an object, the closing bracket included. -/
inductive Form where
  | value
  | items
  | pair
  | members

/-- A text has a form. -/
inductive Spells : Form → List UInt8 → Prop
  | null : Spells .value [0x6E, 0x75, 0x6C, 0x6C]
  | true : Spells .value [0x74, 0x72, 0x75, 0x65]
  | false : Spells .value [0x66, 0x61, 0x6C, 0x73, 0x65]
  | number {t : List UInt8} : Magnitude t → Spells .value t
  | negative {t : List UInt8} : Magnitude t → Spells .value (Byte.minus :: t)
  | string {t : List UInt8} : Inner t → Spells .value (Byte.quote :: (t ++ [Byte.quote]))
  | noItems {w : List UInt8} : Blanks w →
      Spells .value (Byte.openBracket :: (w ++ [Byte.closeBracket]))
  | list {w v t : List UInt8} : Blanks w → Spells .value v → Spells .items t →
      Spells .value (Byte.openBracket :: (w ++ (v ++ t)))
  | noMembers {w : List UInt8} : Blanks w →
      Spells .value (Byte.openBrace :: (w ++ [Byte.closeBrace]))
  | object {w m t : List UInt8} : Blanks w → Spells .pair m → Spells .members t →
      Spells .value (Byte.openBrace :: (w ++ (m ++ t)))
  | closeList {w : List UInt8} : Blanks w → Spells .items (w ++ [Byte.closeBracket])
  | item {w w' v t : List UInt8} : Blanks w → Blanks w' → Spells .value v → Spells .items t →
      Spells .items (w ++ Byte.comma :: (w' ++ (v ++ t)))
  | pair {k w w' v : List UInt8} : Inner k → Blanks w → Blanks w' → Spells .value v →
      Spells .pair (Byte.quote :: (k ++ Byte.quote :: (w ++ Byte.colon :: (w' ++ v))))
  | closeObject {w : List UInt8} : Blanks w → Spells .members (w ++ [Byte.closeBrace])
  | member {w w' m t : List UInt8} : Blanks w → Blanks w' → Spells .pair m → Spells .members t →
      Spells .members (w ++ Byte.comma :: (w' ++ (m ++ t)))

theorem Denotes.inner {t bs : List UInt8} (h : Denotes t bs) : Inner t := by
  induction h with
  | nil => exact .nil
  | plain hb _ ih => exact .plain hb ih
  | escape hx _ ih =>
    cases hx with
    | letter hb => exact .letter hb ih
    | hex hq => exact .hex hq ih
    | pair hq _ _ hr =>
      simp only [List.cons_append, List.append_assoc]
      exact .hex hq (.hex hr ih)

/-- A string that spells a text is a value. -/
theorem SpellsString.spells {s : String} {q : List UInt8} (h : SpellsString s q) :
    Spells .value q := by
  obtain ⟨t, bs, rfl, ht, -⟩ := h
  exact .string ht.inner

theorem not_blank_of_digit {b : UInt8} (h : Byte.isDigit b = true) : Byte.isBlank b = false := by
  cases hb : Byte.isBlank b with
  | false => rfl
  | true =>
    simp only [Byte.isBlank, Bool.or_eq_true, beq_iff_eq] at hb
    rcases hb with ((rfl | rfl) | rfl) | rfl <;> cases h

/-- A value can start with this byte: it is no blank, no comma, no colon and closes nothing. -/
def Starts (b : UInt8) : Prop :=
  Byte.isBlank b = false ∧ b ≠ Byte.comma ∧ b ≠ Byte.colon ∧ b ≠ Byte.closeBracket ∧
    b ≠ Byte.closeBrace

theorem starts_of_digit {b : UInt8} (h : Byte.isDigit b = true) : Starts b := by
  refine ⟨not_blank_of_digit h, ?_, ?_, ?_, ?_⟩ <;> rintro rfl <;> cases h

theorem Magnitude.exists_head {t : List UInt8} (h : Magnitude t) :
    ∃ b u, t = b :: u ∧ Byte.isDigit b = true := by
  obtain ⟨w, f, e, rfl, hw, -, -⟩ := h
  cases hw with
  | zero => exact ⟨_, _, rfl, by decide⟩
  | run hb => exact ⟨_, _, rfl, hb⟩

theorem Spells.exists_head {v : List UInt8} (h : Spells .value v) :
    ∃ b u, v = b :: u ∧ Starts b := by
  cases h with
  | number h =>
    obtain ⟨b, u, rfl, hb⟩ := h.exists_head
    exact ⟨b, u, rfl, starts_of_digit hb⟩
  | _ => exact ⟨_, _, rfl, by unfold Starts; decide⟩

theorem Spells.exists_quote {p : List UInt8} (h : Spells .pair p) : ∃ u, p = Byte.quote :: u := by
  cases h
  exact ⟨_, rfl⟩

theorem ended_append {w t : List UInt8} (hw : Blanks w) {b : UInt8}
    (hb : b = Byte.comma ∨ b = Byte.closeBracket ∨ b = Byte.closeBrace) : Ended (w ++ b :: t) := by
  intro x hx
  cases w with
  | nil =>
    cases hx
    exact .inr hb
  | cons y w =>
    cases hx
    exact .inl (hw _ List.mem_cons_self)

theorem Spells.ended_items {u : List UInt8} (h : Spells .items u) (t : List UInt8) :
    Ended (u ++ t) := by
  cases h with
  | closeList hw =>
    rw [List.append_assoc]
    exact ended_append hw (.inr (.inl rfl))
  | item hw =>
    rw [List.append_assoc]
    exact ended_append hw (.inl rfl)

theorem Spells.ended_members {u : List UInt8} (h : Spells .members u) (t : List UInt8) :
    Ended (u ++ t) := by
  cases h with
  | closeObject hw =>
    rw [List.append_assoc]
    exact ended_append hw (.inr (.inr rfl))
  | member hw =>
    rw [List.append_assoc]
    exact ended_append hw (.inl rfl)

/-! ## An object with its members -/

/-- A key with its value. -/
def Member (k : String) (v m : List UInt8) : Prop :=
  ∃ q w w', m = q ++ (w ++ Byte.colon :: (w' ++ v)) ∧ SpellsString k q ∧ Blanks w ∧ Blanks w' ∧
    Spells .value v

/-- What stands behind a member of an object, and the members that follow. -/
inductive Trail : List (String × List UInt8) → List UInt8 → Prop
  | close {w : List UInt8} : Blanks w → Trail [] (w ++ [Byte.closeBrace])
  | more {k : String} {v w w' m t : List UInt8} {ms : List (String × List UInt8)} : Blanks w →
      Blanks w' → Member k v m → Trail ms t →
      Trail ((k, v) :: ms) (w ++ Byte.comma :: (w' ++ (m ++ t)))

/-- A text is an object with these members. -/
inductive Members : List (String × List UInt8) → List UInt8 → Prop
  | none {w : List UInt8} : Blanks w → Members [] (Byte.openBrace :: (w ++ [Byte.closeBrace]))
  | some {k : String} {v w m t : List UInt8} {ms : List (String × List UInt8)} : Blanks w →
      Member k v m → Trail ms t → Members ((k, v) :: ms) (Byte.openBrace :: (w ++ (m ++ t)))

theorem Member.spells {k : String} {v m : List UInt8} (h : Member k v m) : Spells .pair m := by
  obtain ⟨q, w, w', rfl, ⟨t, bs, rfl, ht, -⟩, hw, hw', hv⟩ := h
  simp only [List.cons_append, List.append_assoc, List.nil_append]
  exact .pair ht.inner hw hw' hv

theorem Trail.spells {ms : List (String × List UInt8)} {t : List UInt8} (h : Trail ms t) :
    Spells .members t := by
  induction h with
  | close hw => exact .closeObject hw
  | more hw hw' hm _ ih => exact .member hw hw' hm.spells ih

theorem Members.spells {ms : List (String × List UInt8)} {t : List UInt8} (h : Members ms t) :
    Spells .value t := by
  cases h with
  | none hw => exact .noMembers hw
  | some hw hm ht => exact .object hw hm.spells ht.spells

/-- The texts of the values of the members with a key. -/
def textsOf (key : String) (ms : List (String × List UInt8)) : List (List UInt8) :=
  (ms.filter fun m => m.1 = key).map (·.2)

theorem textsOf_cons_self (key : String) (v : List UInt8) (ms : List (String × List UInt8)) :
    textsOf key ((key, v) :: ms) = v :: textsOf key ms := by
  simp [textsOf]

theorem textsOf_cons_of_ne {key k : String} (h : k ≠ key) (v : List UInt8)
    (ms : List (String × List UInt8)) : textsOf key ((k, v) :: ms) = textsOf key ms := by
  simp [textsOf, h]

/-! ## Choices -/

/-- A text is a choice by name: the name as a string, or an object with the name as its one key over
`null`. -/
def SpellsChoice (name : String) (v : List UInt8) : Prop :=
  SpellsString name v ∨
    ∃ w q w' w'' u, v = Byte.openBrace :: (w ++ (q ++ (w' ++ Byte.colon :: (w'' ++
      ([0x6E, 0x75, 0x6C, 0x6C] ++ (u ++ [Byte.closeBrace])))))) ∧
      SpellsString name q ∧ Blanks w ∧ Blanks w' ∧ Blanks w'' ∧ Blanks u

end Gatehouse.Json
