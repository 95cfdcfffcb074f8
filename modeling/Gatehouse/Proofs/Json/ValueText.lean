import Gatehouse.Proofs.Json.Figures
import Gatehouse.Proofs.Json.Fields
import Gatehouse.Proofs.Json.Taking

/-!
# Values by their text

What is read as a value is a matter of its text: alone or as a part of another value, with whatever
room there is beside it, the same text gives the same value (`Reads`). Here are the words, numbers,
strings and lists.
-/

namespace Gatehouse.Json

/-! ## Embedded texts are shorter -/

theorem Escape.length_le {x e : List UInt8} (h : Escape x e) : e.length ≤ x.length + 1 := by
  have hchar : ∀ c : Char, (String.utf8EncodeChar c).length ≤ 4 := by
    intro c
    rw [String.length_utf8EncodeChar]
    exact c.utf8Size_le_four
  cases h with
  | letter => exact Nat.le_add_left 1 _
  | hex hq =>
    have hlength := Reader.length_of_hexOf? hq
    exact Nat.le_trans (hchar _) (by rw [List.length_cons, hlength]; decide)
  | pair hq =>
    have hlength := Reader.length_of_hexOf? hq
    refine Nat.le_trans (hchar _) ?_
    rw [List.length_cons, List.length_append, hlength]
    omega

theorem Denotes.length_le {t bs : List UInt8} (h : Denotes t bs) : bs.length ≤ t.length := by
  induction h with
  | nil => exact Nat.le_refl 0
  | plain _ _ ih => exact Nat.succ_le_succ ih
  | escape hx _ ih =>
    have hlength := hx.length_le
    rw [List.length_cons, List.length_append, List.length_append]
    omega

/-- A string is shorter than its text, which has the quotes as well. -/
theorem SpellsString.length_lt {s : String} {q : List UInt8} (h : SpellsString s q) :
    (Utf8.encode s).length < q.length := by
  obtain ⟨t, bs, rfl, ht, hs⟩ := h
  have hencode := Utf8.encode_of_decode hs
  have hdenotes := ht.length_le
  rw [hencode, List.length_cons, List.length_append]
  omega

namespace Reader

/-! ## What is read from the first byte on -/

/-- The reader of what is inside the lists and objects of a value, if there is room for them. -/
def innerWithin (parseText : Option (String → Except Error Value)) : Nat → Option (Reader Value)
  | 0 => none
  | room + 1 => some (valueWithin parseText room)

theorem valueWithin_eq (parseText : Option (String → Except Error Value)) (room : Nat) :
    valueWithin parseText room = valueWith parseText (innerWithin parseText room) := by
  cases room <;> rfl

/-- The reader of a value in front of what comes next. -/
def valueFrom (parseText : Option (String → Except Error Value)) (inner : Option (Reader Value)) :
    Option UInt8 → Reader Value
  | none => stopAhead .endInValue
  | some Byte.smallN => do
    skip
    restOfNull
    return .null
  | some Byte.smallT => do
    skip
    restOfTrue
    return .bool true
  | some Byte.smallF => do
    skip
    restOfFalse
    return .bool false
  | some Byte.minus => do
    skip
    let n ← numberBody false
    return .number n
  | some Byte.quote => do
    skip
    let s ← stringBody
    return .string s
  | some Byte.openBracket =>
    match inner with
    | none => stopAhead .tooDeep
    | some inner => do
      skip
      let vs ← list (items inner)
      return .array vs
  | some Byte.openBrace =>
    match inner with
    | none => stopAhead .tooDeep
    | some inner => do
      skip
      object (objectBody parseText inner)
  | some b =>
    if Byte.isDigit b then do
      let n ← numberBody true
      return .number n
    else stopAhead .expectedValue

section First

variable {parseText : Option (String → Except Error Value)} {inner : Option (Reader Value)}
  {c : Cursor} {good : Value → Cursor → Prop} {bad : Cursor → Prop}

theorem valueWith_eq :
    valueWith parseText inner = placed (ahead? >>= valueFrom parseText inner) := rfl

theorem valueFrom_digit {b : UInt8} (hb : Byte.isDigit b = true) :
    valueFrom parseText inner (some b) = numberBody true >>= fun n => pure (.number n) := by
  unfold valueFrom
  split
  case h_9 heq =>
    cases heq
    exact if_pos hb
  all_goals
    next heq => cases heq <;> cases hb

theorem ends_valueWith_of {w t : List UInt8} {b : UInt8} (hw : Blanks w)
    (hb : Byte.isBlank b = false) (h : c.rest = w ++ b :: t)
    (hgood : ∀ d, d.rest = b :: t → Ends (valueFrom parseText inner (some b)) d good bad) :
    Ends (valueWith parseText inner) c good bad := by
  rw [valueWith_eq, ends_placed, ends_bind]
  exact ends_ahead?_of hw hb h hgood

theorem ends_valueWith_intro
    (hgood : ∀ w b d, Blanks w → c.rest = w ++ d.rest → d.rest.head? = some b →
      Ends (valueFrom parseText inner (some b)) d good fun _ => True) :
    Ends (valueWith parseText inner) c good fun _ => True := by
  rw [valueWith_eq, ends_placed, ends_bind]
  refine ends_ahead?_intro fun w d hw hd _ => ?_
  cases hhead : d.rest.head? with
  | none => trivial
  | some b => exact hgood w b d hw hd hhead

end First

/-! ## Reading by the text -/

/-- A text is read as a value wherever it stands, with so much room or more. What is embedded in it
may go as deep as the text is long. -/
def Reads (room : Nat) (v : List UInt8) (p : Value) : Prop :=
  ∀ n room' w, v.length ≤ n → room ≤ room' → Blanks w →
    Gives (valueWithin (some (parseNested n)) room') (w ++ v) p

section Reads

variable {room : Nat} {v : List UInt8} {p : Value}

theorem Reads.mono {room' : Nat} (h : Reads room v p) (hroom : room ≤ room') : Reads room' v p :=
  fun n room'' w hn hroom' hw => h n room'' w hn (Nat.le_trans hroom hroom') hw

theorem Reads.ends {n room' : Nat} {w t : List UInt8} {c : Cursor} {good : Value → Cursor → Prop}
    {bad : Cursor → Prop} (h : Reads room v p) (hn : v.length ≤ n) (hroom : room ≤ room')
    (hw : Blanks w) (ht : Ended t) (hc : c.rest = w ++ (v ++ t))
    (hgood : ∀ d, d.rest = t → good p d) :
    Ends (valueWithin (some (parseNested n)) room') c good bad := by
  rw [← List.append_assoc] at hc
  refine (h n room' w hn hroom hw c t ht hc).mono ?_ fun _ h => h.elim
  rintro _ d ⟨rfl, hd⟩
  exact hgood d hd

theorem Reads.of_first {b : UInt8} (hb : Byte.isBlank b = false) (hv : v.head? = some b)
    (h : ∀ n room', v.length ≤ n → room ≤ room' →
      Gives (valueFrom (some (parseNested n)) (innerWithin (some (parseNested n)) room') (some b))
        v p) :
    Reads room v p := by
  obtain ⟨u, rfl⟩ := List.head?_eq_some_iff.mp hv
  intro n room' w hn hroom hw c t ht hc
  rw [List.append_assoc, List.cons_append] at hc
  rw [valueWithin_eq]
  exact ends_valueWith_of hw hb hc fun d hd => h n room' hn hroom d t ht hd

end Reads

/-- Members add their values to a dictionary one after the other, each by its own text. -/
inductive Gathers (room : Nat) :
    List (String × List UInt8) → Dictionary Value → Dictionary Value → Prop
  | nil (d : Dictionary Value) : Gathers room [] d d
  | cons {k : String} {v : List UInt8} {p : Value} {ms : List (String × List UInt8)}
      {d d' : Dictionary Value} (h : Reads room v p) (hs : Gathers room ms (d.insert k p) d') :
      Gathers room ((k, v) :: ms) d d'

/-- Of an object it is known where its members come from: from those in the text, a level further
in, or, behind the marker, from another text. -/
inductive Founded (room : Nat) (v : List UInt8) : Value → Prop
  | other {p : Value} (h : ∀ d, p ≠ .object d) : Founded room v p
  | members {ms : List (String × List UInt8)} {d : Dictionary Value} (hms : Members ms v)
      (hkey : ∀ m ∈ ms.head?, m.1 ≠ embeddedKey) (h : Gathers (room - 1) ms [] d) :
      Founded room v (.object d)
  | embedded {s : String} {q : List UInt8} {p : Value} (hms : Members [(embeddedKey, q)] v)
      (hq : SpellsString s q) (h : parse s = .ok p) : Founded room v p

/-- A value is the value of its text. -/
structure Read (room : Nat) (v : List UInt8) (p : Value) : Prop where
  reads : Reads room v p
  founded : Founded room v p

/-! ## Words, numbers and strings -/

/-- Between two points stands the text of a value, which has some value if it is no longer than
allowed. -/
abbrev Taken (n room : Nat) (c : Cursor) (p : Value) (d : Cursor) : Prop :=
  ∃ v, c.rest = v ++ d.rest ∧ Spells .value v ∧ (v.length ≤ n → Read room v p)

/-- A reader takes the text of a value and gives its value. -/
def Takes (n room : Nat) (r : Reader Value) (c : Cursor) : Prop :=
  Ends r c (Taken n room c) fun _ => True

section Atoms

variable {n room : Nat} {c : Cursor}

/-- The first byte of a value decides how the value is read. -/
def fromByte (n room : Nat) (b : UInt8) : Reader Value :=
  valueFrom (some (parseNested n)) (innerWithin (some (parseNested n)) room) (some b)

theorem reads_word {b : UInt8} {bytes : List UInt8} {p : Value}
    (hspells : Spells .value (b :: bytes))
    (hfrom : ∀ n room, fromByte n room b = skip >>= fun _ => word bytes >>= fun _ => pure p) :
    Reads room (b :: bytes) p := by
  obtain ⟨x, u, hx, hstarts⟩ := hspells.exists_head
  cases hx
  refine Reads.of_first hstarts.1 rfl fun n' room' _ _ c' t _ h => ?_
  show Ends (fromByte n' room' b) c' _ _
  rw [hfrom, ends_bind, ends_skip, ends_bind]
  exact ends_word_of (by rw [Cursor.rest_step, h]; rfl) fun e he => ⟨rfl, he⟩

theorem takes_word {b : UInt8} {bytes : List UInt8} {p : Value} (hp : ∀ d, p ≠ .object d)
    (hb : c.rest.head? = some b) (hspells : Spells .value (b :: bytes))
    (hfrom : ∀ n room, fromByte n room b = skip >>= fun _ => word bytes >>= fun _ => pure p) :
    Takes n room (fromByte n room b) c := by
  unfold Takes
  rw [hfrom, ends_bind, ends_skip]
  apply Ends.bind (ends_word bytes)
  intro _ d hd
  have htook : c.rest = (b :: bytes) ++ d.rest := by
    rw [Cursor.rest_of_head? hb, hd]
    rfl
  exact ⟨b :: bytes, htook, hspells, fun _ => ⟨reads_word hspells hfrom, .other hp⟩⟩

theorem takes_negative (hb : c.rest.head? = some Byte.minus) :
    Takes n room (fromByte n room Byte.minus) c := by
  have hfrom : ∀ n room, fromByte n room Byte.minus =
      skip >>= fun _ => numberBody false >>= fun x => pure (.number x) := fun _ _ => rfl
  unfold Takes
  rw [hfrom, ends_bind, ends_skip]
  apply Ends.bind ends_numberBody_takes
  rintro x d ⟨m, hm, hd, hgives⟩
  have htook : c.rest = (Byte.minus :: m) ++ d.rest := by
    rw [Cursor.rest_of_head? hb, hd]
    rfl
  refine ⟨Byte.minus :: m, htook, .negative hm, fun _ => ⟨?_, .other nofun⟩⟩
  refine Reads.of_first (by decide) rfl fun n' room' _ _ c' t ht h => ?_
  show Ends (fromByte n' room' Byte.minus) c' _ _
  rw [hfrom, ends_bind, ends_skip]
  apply Ends.bind (hgives c'.step t ht (by rw [Cursor.rest_step, h]; rfl))
  rintro _ e ⟨rfl, he⟩
  exact ⟨rfl, he⟩

theorem takes_number {b : UInt8} (hb : Byte.isDigit b = true) (hhead : c.rest.head? = some b) :
    Takes n room (fromByte n room b) c := by
  have hfrom : ∀ n room, fromByte n room b = numberBody true >>= fun x => pure (.number x) :=
    fun _ _ => valueFrom_digit hb
  unfold Takes
  rw [hfrom]
  apply Ends.bind ends_numberBody_takes
  rintro x d ⟨m, hm, hd, hgives⟩
  refine ⟨m, hd, .number hm, fun _ => ⟨?_, .other nofun⟩⟩
  obtain ⟨b', u, rfl, hb'⟩ := hm.exists_head
  have hsame : b' = b := by
    rw [hd] at hhead
    cases hhead
    rfl
  subst hsame
  refine Reads.of_first (not_blank_of_digit hb) rfl fun n' room' _ _ c' t ht h => ?_
  show Ends (fromByte n' room' b') c' _ _
  rw [hfrom]
  apply Ends.bind (hgives c' t ht h)
  rintro _ e ⟨rfl, he⟩
  exact ⟨rfl, he⟩

/-- A numeral from zero up is read as its number. -/
theorem reads_natural (u : UInt64) : Reads room (numeral u.toNat) (.number (.natural u)) := by
  rcases numeral_cases u.toNat with ⟨hneg, -⟩ | ⟨-, hnum, b, ds, hb, hdigit⟩
  · omega
  · rw [Int.natAbs_natCast] at hnum hb
    have hhead : (numeral u.toNat).head? = some b := by
      rw [hnum, hb]
      rfl
    refine Reads.of_first (not_blank_of_digit hdigit) hhead fun n room' _ _ c t ht h => ?_
    rw [hnum] at h
    rw [valueFrom_digit hdigit, ends_bind]
    refine ends_numberBody_of u.toNat_lt h ht fun d hd => ?_
    have hvalue : wholeNumber true u.toNat = .natural u := by simp [wholeNumber]
    rw [hvalue]
    exact ⟨rfl, hd⟩

/-- A numeral below zero is read as its number. -/
theorem reads_negative {i : Int64} (hi : i < 0) :
    Reads room (numeral i.toInt) (.number (.negative i)) := by
  have hneg : i.toInt < 0 := Int64.lt_iff_toInt_lt.mp hi
  have hnum := numeral_of_neg hneg
  have hhead : (numeral i.toInt).head? = some Byte.minus := by
    rw [hnum]
    rfl
  refine Reads.of_first (by decide) hhead fun n room' _ _ c t ht h => ?_
  show Ends (skip >>= fun _ => numberBody false >>= fun x => pure (Value.number x)) c _ _
  rw [ends_bind, ends_skip, ends_bind]
  have hrest : c.step.rest = digitsOf i.toInt.natAbs ++ t := by
    rw [Cursor.rest_step, h, hnum]
    rfl
  refine ends_numberBody_numeral hrest ht (decide_eq_false (by omega)).symm fun d hd => ?_
  have hvalue : Number.ofInt64 i = .negative i := if_pos hi
  rw [hvalue]
  exact ⟨rfl, hd⟩

theorem fromByte_quote (n room : Nat) :
    fromByte n room Byte.quote = (skip >>= fun _ => stringBody) >>= fun s => pure (.string s) :=
  rfl

theorem reads_string {s : String} {q : List UInt8} (hq : SpellsString s q) :
    Reads room q (.string s) := by
  have hquote : q.head? = some Byte.quote := by
    obtain ⟨u, rfl⟩ := hq.exists_quote
    rfl
  refine Reads.of_first (by decide) hquote fun n room' _ _ c t _ h => ?_
  show Ends (fromByte n room' Byte.quote) c _ _
  rw [fromByte_quote, ends_bind]
  exact ends_quoted_of hq h fun e he => ⟨rfl, he⟩

theorem takes_string (hb : c.rest.head? = some Byte.quote) :
    Takes n room (fromByte n room Byte.quote) c := by
  unfold Takes
  rw [fromByte_quote]
  apply Ends.bind (ends_quoted hb)
  rintro s d ⟨q, hq, hd⟩
  exact ⟨q, hd, hq.spells, fun _ => ⟨reads_string hq, .other nofun⟩⟩

end Atoms

/-! ## Lists -/

/-- What stands behind an item of a list, and the items that follow. -/
inductive Items : List (List UInt8) → List UInt8 → Prop
  | close {w : List UInt8} : Blanks w → Items [] (w ++ [Byte.closeBracket])
  | more {v w w' t : List UInt8} {vs : List (List UInt8)} : Blanks w → Blanks w' →
      Spells .value v → Items vs t → Items (v :: vs) (w ++ Byte.comma :: (w' ++ (v ++ t)))

theorem Items.spells {vs : List (List UInt8)} {t : List UInt8} (h : Items vs t) :
    Spells .items t := by
  induction h with
  | close hw => exact .closeList hw
  | more hw hw' hv _ ih => exact .item hw hw' hv ih

theorem Items.bounds {vs : List (List UInt8)} {t : List UInt8} (h : Items vs t) :
    vs.length < t.length ∧ ∀ v ∈ vs, v.length ≤ t.length := by
  induction h with
  | close hw =>
    refine ⟨by rw [List.length_append]; exact Nat.lt_add_left _ Nat.one_pos, ?_⟩
    intro v hv
    cases hv
  | more _ _ _ _ ih =>
    simp only [List.length_append, List.length_cons, List.mem_cons]
    refine ⟨by omega, ?_⟩
    rintro v (rfl | hv)
    · omega
    · have hle := ih.2 v hv
      omega

/-- Texts are read as values one by one. -/
inductive ReadsAll (room : Nat) : List (List UInt8) → List Value → Prop
  | nil : ReadsAll room [] []
  | cons {v : List UInt8} {p : Value} {vs : List (List UInt8)} {ps : List Value}
      (h : Reads room v p) (hs : ReadsAll room vs ps) : ReadsAll room (v :: vs) (p :: ps)

/-- A reader of values takes blanks and the text of a value. -/
def TakesValue (n room : Nat) (item : Reader Value) : Prop :=
  ∀ c, Ends item c (fun p d => ∃ w v, Blanks w ∧ Spells .value v ∧ c.rest = w ++ (v ++ d.rest) ∧
    (v.length ≤ n → Read room v p)) fun _ => True

section Lists

variable {n room : Nat} {c : Cursor}

theorem ends_itemsUpTo_takes {item : Reader Value} (hitem : TakesValue n room item) (k : Nat) :
    Ends (itemsUpTo item k false) c
      (fun ps d => ∀ w r, Blanks w → d.rest = w ++ Byte.closeBracket :: r →
        ∃ vs t, Items vs t ∧ c.rest = t ++ r ∧ ((∀ v ∈ vs, v.length ≤ n) → ReadsAll room vs ps))
      fun _ => True := by
  induction k generalizing c with
  | zero =>
    intro w r hw hr
    exact ⟨[], _, .close hw, by rw [hr, List.append_assoc]; rfl, fun _ => .nil⟩
  | succ k ih =>
    rw [itemsUpTo]
    apply Ends.bind ends_hasItem
    rintro more d ⟨w, hw, ⟨rfl, hd, -⟩ | ⟨rfl, w', hw', hd⟩⟩
    · rw [if_neg Bool.false_ne_true]
      intro w1 r hw1 hr
      refine ⟨[], _, .close (hw.append hw1), ?_, fun _ => .nil⟩
      rw [hd, hr]
      simp only [List.append_assoc, List.cons_append, List.nil_append]
    · rw [if_pos rfl]
      apply Ends.bind (hitem d)
      rintro p d1 ⟨w1, v, hw1, hv, hd1, hreads⟩
      apply Ends.bind ih
      intro ps d2 hrest
      rw [ends_pure]
      intro w2 r hw2 hr
      obtain ⟨vs, t, ht, heq, hall⟩ := hrest w2 r hw2 hr
      refine ⟨v :: vs, _, .more hw (hw'.append hw1) hv ht, ?_, fun hlength => ?_⟩
      · rw [hd, hd1, heq]
        simp only [List.append_assoc, List.cons_append]
      · exact .cons (hreads (hlength v List.mem_cons_self)).reads
          (hall fun x hx => hlength x (List.mem_cons_of_mem _ hx))

theorem ends_itemsUpTo_reads {vs : List (List UInt8)} {ps : List Value} {t r : List UInt8}
    (ht : Items vs t) (hreads : ReadsAll room vs ps) (hn : ∀ v ∈ vs, v.length ≤ n) {room' : Nat}
    (hroom : room ≤ room') {k : Nat} (hk : vs.length < k) (h : c.rest = t ++ r)
    {good : List Value → Cursor → Prop} {bad : Cursor → Prop}
    (hgood : ∀ d, d.rest = Byte.closeBracket :: r → good ps d) :
    Ends (itemsUpTo (valueWithin (some (parseNested n)) room') k false) c good bad := by
  induction ht generalizing ps k c good with
  | close hw =>
    obtain ⟨k, rfl⟩ := Nat.exists_eq_add_of_lt hk
    cases hreads
    rw [List.append_assoc] at h
    rw [itemsUpTo, ends_bind]
    refine ends_hasItem_close hw h fun d hd => ?_
    rw [if_neg Bool.false_ne_true]
    exact hgood d hd
  | more hw hw' hv ht ih =>
    obtain ⟨k, rfl⟩ := Nat.exists_eq_add_of_lt hk
    cases hreads with
    | cons hread hreads =>
      obtain ⟨b, u, rfl, hb⟩ := hv.exists_head
      simp only [List.append_assoc, List.cons_append] at h
      rw [itemsUpTo, ends_bind]
      refine ends_hasItem_next hw hw' hb h fun d hd => ?_
      rw [if_pos rfl, ends_bind]
      rw [← List.cons_append] at hd
      refine hread.ends (hn _ List.mem_cons_self) hroom Blanks.nil (ht.spells.ended_items r) hd
        fun d1 hd1 => ?_
      rw [ends_bind]
      refine ih hreads (fun x hx => hn x (List.mem_cons_of_mem _ hx)) ?_ hd1 fun d2 hd2 => ?_
      · simp only [List.length_cons]
        omega
      · exact hgood d2 hd2

theorem fromByte_list (n room : Nat) :
    fromByte n (room + 1) Byte.openBracket = skip >>= fun _ =>
      list (items (valueWithin (some (parseNested n)) room)) >>= fun ps => pure (.array ps) := rfl

theorem reads_noItems {w : List UInt8} (hw : Blanks w) :
    Reads (room + 1) (Byte.openBracket :: (w ++ [Byte.closeBracket])) (.array []) := by
  refine Reads.of_first (by decide) rfl fun n room' _ hroom c t _ h => ?_
  obtain ⟨k, rfl⟩ := Nat.exists_eq_add_of_le' hroom
  have hstep : c.step.rest = w ++ Byte.closeBracket :: t := by
    rw [Cursor.rest_step, h, List.cons_append, List.append_assoc]
    rfl
  show Ends (fromByte n (k + room + 1) Byte.openBracket) c _ _
  rw [fromByte_list, ends_bind, ends_skip, ends_bind]
  unfold list items
  rw [ends_enclosed, ends_bind, ends_get, itemsUpTo, ends_bind]
  refine ends_hasItem_close hw hstep fun d hd => ?_
  exact ends_closeList_of Blanks.nil hd fun e he => ⟨rfl, he⟩

theorem reads_items {w v t : List UInt8} {p : Value} {vs : List (List UInt8)} {ps : List Value}
    (hw : Blanks w) (hv : Spells .value v) (ht : Items vs t) (hread : Reads room v p)
    (hreads : ReadsAll room vs ps) :
    Reads (room + 1) (Byte.openBracket :: (w ++ (v ++ t))) (.array (p :: ps)) := by
  refine Reads.of_first (by decide) rfl fun n room' hn hroom c r _ h => ?_
  obtain ⟨k, rfl⟩ := Nat.exists_eq_add_of_le' hroom
  obtain ⟨hcount, hbound⟩ := ht.bounds
  have hlength : ∀ x ∈ vs, x.length ≤ n := by
    intro x hx
    have hle := hbound x hx
    simp only [List.length_cons, List.length_append] at hn
    omega
  have hstep : c.step.rest = w ++ (v ++ (t ++ r)) := by
    rw [Cursor.rest_step, h]
    simp only [List.cons_append, List.append_assoc, List.tail_cons]
  obtain ⟨b, u, rfl, hb⟩ := hv.exists_head
  show Ends (fromByte n (k + room + 1) Byte.openBracket) c _ _
  rw [fromByte_list, ends_bind, ends_skip, ends_bind]
  unfold list items
  rw [ends_enclosed, ends_bind, ends_get, itemsUpTo, ends_bind]
  refine ends_hasItem_first hw hb hstep fun d hd => ?_
  rw [if_pos rfl, ends_bind]
  refine hread.ends (by simp only [List.length_cons, List.length_append] at hn ⊢; omega)
    (Nat.le_add_left room k) Blanks.nil (ht.spells.ended_items r) hd fun d1 hd1 => ?_
  rw [ends_bind]
  refine ends_itemsUpTo_reads ht hreads hlength (Nat.le_add_left room k) ?_ hd1 fun d2 hd2 => ?_
  · rw [hstep]
    simp only [List.length_append, List.length_cons]
    omega
  · exact ends_closeList_of Blanks.nil hd2 fun e he => ⟨rfl, he⟩

theorem takes_list (hitem : TakesValue n room (valueWithin (some (parseNested n)) room))
    (hb : c.rest.head? = some Byte.openBracket) :
    Takes n (room + 1) (fromByte n (room + 1) Byte.openBracket) c := by
  have hrest := Cursor.rest_of_head? hb
  have hfounded : ∀ {v : List UInt8} (ps : List Value), Founded (room + 1) v (.array ps) := by
    intro v ps
    refine .other fun d h => ?_
    cases h
  unfold Takes
  rw [fromByte_list, ends_bind, ends_skip, ends_bind]
  unfold list items
  rw [ends_enclosed, ends_bind, ends_get, itemsUpTo, ends_bind]
  refine ends_hasItem.mono ?_ fun _ _ => ends_trivial _
  rintro more d ⟨w, hw, ⟨rfl, hd, -⟩ | ⟨rfl, hd⟩⟩
  · rw [if_neg Bool.false_ne_true, ends_pure]
    apply ends_closeList.imp
    rintro _ e ⟨w', hw', he⟩
    refine ⟨_, ?_, .noItems (hw.append hw'),
      fun _ => ⟨reads_noItems (hw.append hw'), hfounded []⟩⟩
    rw [hrest, hd, he]
    simp only [List.append_assoc, List.cons_append, List.nil_append]
  · rw [if_pos rfl, ends_bind]
    refine (hitem d).mono ?_ fun _ _ => ends_trivial _
    rintro p d1 ⟨w1, v, hw1, hv, hd1, hread⟩
    rw [ends_bind]
    refine (ends_itemsUpTo_takes hitem _).mono ?_ fun _ _ => ends_trivial _
    intro ps d2 hitems
    rw [ends_pure]
    apply ends_closeList.imp
    rintro _ e ⟨w2, hw2, he⟩
    obtain ⟨vs, t, ht, heq, hreads⟩ := hitems w2 e.rest hw2 he
    refine ⟨Byte.openBracket :: ((w ++ w1) ++ (v ++ t)), ?_,
      .list (hw.append hw1) hv ht.spells, fun hlength => ?_⟩
    · rw [if_pos rfl] at hd
      rw [hrest, hd, hd1, heq]
      simp only [List.append_assoc, List.cons_append]
    · simp only [List.length_cons, List.length_append] at hlength
      have hall : ∀ x ∈ vs, x.length ≤ n := by
        intro x hx
        have hle := ht.bounds.2 x hx
        omega
      exact ⟨reads_items (hw.append hw1) hv ht (hread (by omega)).reads (hreads hall),
        hfounded _⟩

end Lists

end Reader

end Gatehouse.Json
