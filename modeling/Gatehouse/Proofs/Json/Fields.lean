import Gatehouse.Proofs.Json.Skipping

/-!
# Reading the fields of a record

What the readers of keys, fields and records take from a text whose form is known. With these laws
the reading of an object is followed member by member.
-/

namespace Gatehouse.Json.Reader

variable {α σ : Type} {c : Cursor} {w w' t : List UInt8} {bad : Cursor → Prop}

/-! ## Strings and choices -/

theorem ends_quoted_of {s : String} {q : List UInt8} (hq : SpellsString s q)
    (h : c.rest = q ++ t) {good : String → Cursor → Prop} (hgood : ∀ d, d.rest = t → good s d) :
    Ends (skip >>= fun _ => stringBody) c good bad := by
  obtain ⟨u, bs, rfl, hu, hs⟩ := hq
  rw [List.cons_append, List.append_assoc] at h
  rw [ends_bind, ends_skip]
  exact ends_stringBody_of hu hs (by rw [Cursor.rest_step, h]; rfl) hgood

theorem ends_string_of {expected s : String} {q : List UInt8} (hw : Blanks w)
    (hq : SpellsString s q) (h : c.rest = w ++ (q ++ t)) {good : String → Cursor → Prop}
    (hgood : ∀ d, d.rest = t → good s d) : Ends (string expected) c good bad := by
  obtain ⟨u, rfl⟩ := hq.exists_quote
  unfold string
  rw [ends_placed, ends_bind]
  exact ends_ahead?_of hw (by decide) h fun d hd => ends_quoted_of hq hd hgood

theorem ends_valueWith_string {parseText : Option (String → Except Error Value)}
    {inner : Option (Reader Value)} {s : String} {q : List UInt8} (hw : Blanks w)
    (hq : SpellsString s q) (h : c.rest = w ++ (q ++ t)) {good : Value → Cursor → Prop}
    (hgood : ∀ d, d.rest = t → good (.string s) d) :
    Ends (valueWith parseText inner) c good bad := by
  obtain ⟨u, rfl⟩ := hq.exists_quote
  unfold valueWith
  rw [ends_placed, ends_bind]
  refine ends_ahead?_of hw (by decide) h fun d hd => ?_
  show Ends (skip >>= fun _ => stringBody >>= fun s => pure (.string s)) d good bad
  rw [← bind_assoc, ends_bind]
  exact ends_quoted_of hq hd hgood

theorem ends_choice_of {room : Nat} {choices : List (String × α)} {name : String} {a : α}
    {q : List UInt8} (hw : Blanks w) (hq : SpellsString name q)
    (ha : choices.lookup name = some a) (h : c.rest = w ++ (q ++ t))
    {good : α → Cursor → Prop} (hgood : ∀ d, d.rest = t → good a d) :
    Ends (choice room choices) c good bad := by
  obtain ⟨u, rfl⟩ := hq.exists_quote
  unfold choice
  rw [ends_bind]
  refine ends_ahead?_of hw (by decide) h fun d hd => ?_
  show Ends (choiceName choices) d good bad
  unfold choiceName
  rw [ends_placed, ← bind_assoc, ends_bind]
  refine ends_quoted_of hq hd fun e he => ?_
  rw [ha]
  exact hgood e he

/-- A value that does not start like `null` is read as itself. -/
theorem ends_optional_of {item : Reader α} {b : UInt8} (hw : Blanks w)
    (hb : Byte.isBlank b = false) (hn : b ≠ Byte.smallN) (h : c.rest = w ++ b :: t)
    {good : Option α → Cursor → Prop}
    (hgood : ∀ d, d.rest = b :: t → Ends item d (fun a e => good (some a) e) bad) :
    Ends (optional item) c good bad := by
  unfold optional
  rw [ends_bind]
  refine ends_ahead?_of hw hb h fun d hd => ?_
  split
  · next heq => exact absurd (Option.some.inj heq) hn
  · rw [ends_bind]
    exact hgood d hd

/-! ## Keys -/

section Keys

variable {good : Bool → Cursor → Prop}

theorem ends_hasKey_first (hw : Blanks w) (h : c.rest = w ++ Byte.quote :: t)
    (hgood : ∀ d, d.rest = Byte.quote :: t → good true d) : Ends (hasKey true) c good bad := by
  unfold hasKey
  rw [ends_bind]
  exact ends_ahead?_of hw (by decide) h hgood

theorem ends_hasKey_next (hw : Blanks w) (hw' : Blanks w')
    (h : c.rest = w ++ Byte.comma :: (w' ++ Byte.quote :: t))
    (hgood : ∀ d, d.rest = Byte.quote :: t → good true d) : Ends (hasKey false) c good bad := by
  unfold hasKey
  rw [ends_bind]
  refine ends_ahead?_of hw (by decide) h fun d hd => ?_
  show Ends (skip >>= fun _ => ahead? >>= _) d good bad
  rw [ends_bind, ends_skip, ends_bind]
  exact ends_ahead?_of hw' (by decide) (by rw [Cursor.rest_step, hd]; rfl) hgood

theorem ends_hasKey_close {first : Bool} (hw : Blanks w) (h : c.rest = w ++ Byte.closeBrace :: t)
    (hgood : ∀ d, d.rest = Byte.closeBrace :: t → good false d) :
    Ends (hasKey first) c good bad := by
  unfold hasKey
  rw [ends_bind]
  exact ends_ahead?_of hw (by decide) h hgood

end Keys

theorem ends_closeObject_of (hw : Blanks w) (h : c.rest = w ++ Byte.closeBrace :: t)
    {good : Unit → Cursor → Prop} (hgood : ∀ d, d.rest = t → good () d) :
    Ends closeObject c good bad := by
  unfold closeObject
  rw [ends_bind]
  refine ends_ahead?_of hw (by decide) h fun d hd => ?_
  exact hgood _ (by rw [Cursor.rest_step, hd]; rfl)

/-! ## Items -/

section Items

variable {good : Bool → Cursor → Prop} {b : UInt8}

theorem ends_hasItem_first (hw : Blanks w) (hb : Starts b) (h : c.rest = w ++ b :: t)
    (hgood : ∀ d, d.rest = b :: t → good true d) : Ends (hasItem true) c good bad := by
  unfold hasItem
  rw [ends_bind]
  refine ends_ahead?_of hw hb.1 h fun d hd => ?_
  split
  · next heq => cases heq
  · next heq => exact absurd (Option.some.inj heq) hb.2.2.2.1
  · exact hgood d hd

theorem ends_hasItem_next (hw : Blanks w) (hw' : Blanks w') (hb : Starts b)
    (h : c.rest = w ++ Byte.comma :: (w' ++ b :: t))
    (hgood : ∀ d, d.rest = b :: t → good true d) : Ends (hasItem false) c good bad := by
  unfold hasItem
  rw [ends_bind]
  refine ends_ahead?_of hw (by decide) h fun d hd => ?_
  show Ends (skip >>= fun _ => ahead? >>= _) d good bad
  rw [ends_bind, ends_skip, ends_bind]
  refine ends_ahead?_of hw' hb.1 (by rw [Cursor.rest_step, hd]; rfl) fun e he => ?_
  split
  · next heq => cases heq
  · next heq => exact absurd (Option.some.inj heq) hb.2.2.2.1
  · exact hgood e he

theorem ends_hasItem_close {first : Bool} (hw : Blanks w)
    (h : c.rest = w ++ Byte.closeBracket :: t)
    (hgood : ∀ d, d.rest = Byte.closeBracket :: t → good false d) :
    Ends (hasItem first) c good bad := by
  unfold hasItem
  rw [ends_bind]
  exact ends_ahead?_of hw (by decide) h hgood

end Items

theorem ends_closeList_of (hw : Blanks w) (h : c.rest = w ++ Byte.closeBracket :: t)
    {good : Unit → Cursor → Prop} (hgood : ∀ d, d.rest = t → good () d) :
    Ends closeList c good bad := by
  unfold closeList
  rw [ends_bind]
  refine ends_ahead?_of hw (by decide) h fun d hd => ?_
  exact hgood _ (by rw [Cursor.rest_step, hd]; rfl)

/-! ## Members -/

section Members

variable {member : String → σ → Reader σ} {n : Nat} {s : σ} {k : String} {q : List UInt8}
  {good : σ → Cursor → Prop}

theorem ends_membersUpTo_first (hw : Blanks w) (hq : SpellsString k q)
    (h : c.rest = w ++ (q ++ t))
    (hgood : ∀ d, d.rest = t →
      Ends (member k s) d (fun s e => Ends (membersUpTo member n false s) e good bad) bad) :
    Ends (membersUpTo member (n + 1) true s) c good bad := by
  obtain ⟨u, rfl⟩ := hq.exists_quote
  rw [membersUpTo, ends_bind]
  refine ends_hasKey_first hw h fun d hd => ?_
  rw [if_pos rfl, ends_bind]
  refine ends_quoted_of hq hd fun e he => ?_
  rw [ends_bind]
  exact hgood e he

theorem ends_membersUpTo_next (hw : Blanks w) (hw' : Blanks w') (hq : SpellsString k q)
    (h : c.rest = w ++ Byte.comma :: (w' ++ (q ++ t)))
    (hgood : ∀ d, d.rest = t →
      Ends (member k s) d (fun s e => Ends (membersUpTo member n false s) e good bad) bad) :
    Ends (membersUpTo member (n + 1) false s) c good bad := by
  obtain ⟨u, rfl⟩ := hq.exists_quote
  rw [membersUpTo, ends_bind]
  refine ends_hasKey_next hw hw' h fun d hd => ?_
  rw [if_pos rfl, ends_bind]
  refine ends_quoted_of hq hd fun e he => ?_
  rw [ends_bind]
  exact hgood e he

theorem ends_membersUpTo_close {first : Bool} (hw : Blanks w)
    (h : c.rest = w ++ Byte.closeBrace :: t)
    (hgood : ∀ d, d.rest = Byte.closeBrace :: t → good s d) :
    Ends (membersUpTo member (n + 1) first s) c good bad := by
  rw [membersUpTo, ends_bind]
  refine ends_hasKey_close hw h fun d hd => ?_
  rw [if_neg Bool.false_ne_true]
  exact hgood d hd

end Members

theorem ends_field_of {name : String} {item : Reader α} (hw : Blanks w)
    (h : c.rest = w ++ Byte.colon :: t) {good : Option α → Cursor → Prop}
    (hgood : ∀ d, d.rest = t → Ends item d (fun a e => good (some a) e) bad) :
    Ends (field name none item) c good bad := by
  unfold field
  rw [ends_bind]
  refine ends_colon_of hw h fun d hd => ?_
  rw [ends_bind]
  exact hgood d hd

theorem ends_otherMember_of {s : σ} {v : List UInt8} (hw : Blanks w) (hw' : Blanks w')
    (hv : Spells .value v) (ht : Ended t) (h : c.rest = w ++ Byte.colon :: (w' ++ (v ++ t)))
    {good : σ → Cursor → Prop} (hgood : ∀ d, d.rest = t → good s d) :
    Ends (otherMember s) c good bad := by
  unfold otherMember
  rw [ends_bind]
  refine ends_colon_of hw h fun d hd => ?_
  rw [ends_bind]
  exact ends_skipValue_of hv hw' hd ht hgood

/-! ## Records -/

theorem ends_record_object {room : Nat} {name : String} {fromMembers fromItems : Reader α}
    (hw : Blanks w) (h : c.rest = w ++ Byte.openBrace :: t) {good : α → Cursor → Prop}
    (hgood : ∀ d, d.rest = t →
      Ends fromMembers d (fun a e => Ends closeObject e (fun _ e => good a e) bad)
        fun e => Ends closeObject e (fun _ e => bad e) bad) :
    Ends (record (room + 1) name fromMembers fromItems) c good bad := by
  unfold record
  rw [ends_placed, ends_bind]
  refine ends_ahead?_of hw (by decide) h fun d hd => ?_
  show Ends (skip >>= fun _ => object fromMembers) d good bad
  rw [ends_bind, ends_skip]
  unfold object
  rw [ends_enclosed]
  exact hgood _ (by rw [Cursor.rest_step, hd]; rfl)

end Gatehouse.Json.Reader
