import Gatehouse.Json.Record
import Gatehouse.Proofs.Json.Indented

/-!
# Reading records

What a reader makes of a text does not depend on the blanks in front of it (`Yields`). A record in
an object is read member by member, each of them by the text of its value (`Follows`), so that the
blanks between the members make no difference either (`yields_record`). Nor does the order of the
members, and what is no field is passed over whatever it is worth (`Slots.yields_record`). A value
that is printed, without blanks or over several lines, is a text of this kind (`Written`).
-/

namespace Gatehouse.Json

namespace Reader

variable {α σ : Type} {c : Cursor}

/-! ## Single values -/

/-- A reader gives a result for a text behind any blanks, if no number goes on behind it. -/
def Yields (r : Reader α) (v : List UInt8) (a : α) : Prop :=
  ∀ (c : Cursor) (w t : List UInt8), Blanks w → Ended t → c.rest = w ++ (v ++ t) →
    Ends r c (fun b d => b = a ∧ d.rest = t) fun _ => False

theorem Yields.ends {r : Reader α} {v w t : List UInt8} {a : α} (h : Yields r v a) (hw : Blanks w)
    (ht : Ended t) (hc : c.rest = w ++ (v ++ t)) {good : α → Cursor → Prop} {bad : Cursor → Prop}
    (hgood : ∀ d, d.rest = t → good a d) : Ends r c good bad := by
  refine (h c w t hw ht hc).mono ?_ fun _ h => h.elim
  rintro _ d ⟨rfl, hd⟩
  exact hgood d hd

/-- A text that is read wherever it stands is read on its own, with blanks around it. -/
theorem Yields.run {r : Reader α} {v w t : List UInt8} {a : α} (h : Yields r v a) (hw : Blanks w)
    (ht : Blanks t) : r.run (w ++ (v ++ t)) = .ok a := by
  have hends : Ends r (Cursor.start (w ++ (v ++ t))) (fun b d => b = a ∧ d.rest = t)
      fun _ => False := h _ w t hw (Blanks.ended ht) (Cursor.rest_start _)
  obtain ⟨_, d, hread, rfl, hd⟩ := hends.exists_ok
  refine run_eq_ok.mpr ⟨d, hread, ?_⟩
  rw [hd, ← List.append_nil t, ht.dropWhile_append, List.dropWhile_nil]

theorem Yields.run_alone {r : Reader α} {v : List UInt8} {a : α} (h : Yields r v a) :
    r.run v = .ok a := by
  have hrun := h.run Blanks.nil Blanks.nil
  rwa [List.append_nil] at hrun

theorem yields_string {expected s : String} {q : List UInt8} (hq : SpellsString s q) :
    Yields (string expected) q s :=
  fun _ _ _ hw _ h => ends_string_of hw hq h fun _ hd => ⟨rfl, hd⟩

theorem yields_optional {expected s : String} {q : List UInt8} (hq : SpellsString s q) :
    Yields (optional (string expected)) q (some s) := by
  obtain ⟨u, rfl⟩ := hq.exists_quote
  intro c w t hw _ h
  refine ends_optional_of hw (by decide) (by decide) h fun d hd => ?_
  exact ends_string_of Blanks.nil hq hd fun e he => ⟨rfl, he⟩

theorem yields_choice {room : Nat} {choices : List (String × α)} {name : String} {a : α}
    {q : List UInt8} (hq : SpellsString name q) (ha : choices.lookup name = some a) :
    Yields (choice room choices) q a :=
  fun _ _ _ hw _ h => ends_choice_of hw hq ha h fun _ hd => ⟨rfl, hd⟩

theorem yields_bool (b : Bool) : Yields bool (Utf8.encodeChars (boolChars b)) b := by
  intro c w t hw _ h
  unfold bool
  rw [ends_placed, ends_bind]
  cases b with
  | true =>
    refine ends_ahead?_of hw (b := Byte.smallT) (by decide) h fun d hd => ?_
    show Ends (skip >>= fun _ => restOfTrue >>= fun _ => pure true) d _ _
    rw [ends_bind, ends_skip, ends_bind]
    exact ends_word_of (by rw [Cursor.rest_step, hd]; rfl) fun e he => ⟨rfl, he⟩
  | false =>
    refine ends_ahead?_of hw (b := Byte.smallF) (by decide) h fun d hd => ?_
    show Ends (skip >>= fun _ => restOfFalse >>= fun _ => pure false) d _ _
    rw [ends_bind, ends_skip, ends_bind]
    exact ends_word_of (by rw [Cursor.rest_step, hd]; rfl) fun e he => ⟨rfl, he⟩

theorem yields_int64 (i : Int64) : Yields int64 (numeral i.toInt) i :=
  fun _ _ _ hw ht h => ends_int64_of hw h ht fun _ hd => ⟨rfl, hd⟩

/-- A numeral from zero up is read as an integer where it fits. -/
theorem yields_integer {expected : String} {fit : Int → Option α} {u : UInt64} {a : α}
    (hfit : fit u.toNat = some a) : Yields (integer expected fit) (numeral u.toNat) a := by
  intro c w t hw ht h
  rcases numeral_cases u.toNat with ⟨hneg, -⟩ | ⟨-, hnum, b, ds, hb, hdigit⟩
  · omega
  · rw [Int.natAbs_natCast] at hnum hb
    rw [hnum, hb, List.cons_append] at h
    unfold integer
    rw [ends_placed, ends_bind]
    refine ends_ahead?_of hw (not_blank_of_digit hdigit) h fun d hd => ?_
    split
    · next heq => cases heq
    · next heq =>
      cases heq
      cases hdigit
    · next heq =>
      cases heq
      rw [if_pos hdigit, ends_bind]
      refine ends_numberBody_of u.toNat_lt (by rw [hd, hb, List.cons_append]) ht fun e he => ?_
      have hfitting : fitting expected fit (wholeNumber true u.toNat) = pure a := by
        simp [wholeNumber, fitting, hfit]
      rw [hfitting]
      exact ⟨rfl, he⟩

theorem yields_uint64 {expected : String} (u : UInt64) :
    Yields (uint64 expected) (numeral u.toNat) u := by
  have hlt := u.toNat_lt
  refine yields_integer ?_
  rw [inRange, if_pos (by omega), Option.map_some, Int.toNat_natCast]
  exact congrArg some u.ofNat_toNat

theorem yields_uint32 (u : UInt32) : Yields uint32 (numeral u.toUInt64.toNat) u := by
  have hlt := u.toNat_lt
  refine yields_integer ?_
  rw [UInt32.toNat_toUInt64, inRange, if_pos (by omega), Option.map_some, Int.toNat_natCast]
  exact congrArg some u.ofNat_toNat

theorem yields_uint16 (u : UInt16) : Yields uint16 (numeral u.toUInt64.toNat) u := by
  have hlt := u.toNat_lt
  refine yields_integer ?_
  rw [UInt16.toNat_toUInt64, inRange, if_pos (by omega), Option.map_some, Int.toNat_natCast]
  exact congrArg some u.ofNat_toNat

theorem Reads.yields {room : Nat} {v : List UInt8} {p : Value} (h : Reads room v p) :
    Yields (value room) v p := by
  intro c w t hw ht hc
  unfold value
  rw [ends_bind, ends_get]
  refine h.ends ?_ (Nat.le_refl room) hw ht hc fun d hd => ⟨rfl, hd⟩
  rw [hc, List.length_append, List.length_append]
  omega

/-! ## Members -/

/-- The reader of members passes from one state to another over a member with a key and the text of
its value. -/
def Accepts (member : String → σ → Reader σ) (k : String) (v : List UInt8) (s s' : σ) : Prop :=
  ∀ (c : Cursor) (w w' t : List UInt8), Blanks w → Blanks w' → Ended t →
    c.rest = w ++ Byte.colon :: (w' ++ (v ++ t)) →
    Ends (member k s) c (fun x d => x = s' ∧ d.rest = t) fun _ => False

/-- It passes over some members, one after the other. -/
inductive Follows (member : String → σ → Reader σ) : List (String × List UInt8) → σ → σ → Prop
  | nil (s : σ) : Follows member [] s s
  | cons {k : String} {v : List UInt8} {s s' s'' : σ} {ms : List (String × List UInt8)}
      (h : Accepts member k v s s') (hs : Follows member ms s' s'') :
      Follows member ((k, v) :: ms) s s''

section Members

variable {member : String → σ → Reader σ} {k : String} {v : List UInt8} {s s' : σ}

/-- The value of a field goes where the record has it. -/
theorem accepts_field {name : String} {item : Reader α} {a : α} {put : Option α → σ}
    (hmember : member k s = field name none item >>= fun x => pure (put x))
    (h : Yields item v a) : Accepts member k v s (put (some a)) := by
  intro c w w' t hw hw' ht hc
  rw [hmember, ends_bind]
  refine ends_field_of hw hc fun d hd => ?_
  exact h.ends hw' ht hd fun e he => ⟨rfl, he⟩

theorem accepts_other (hmember : member k s = otherMember s) (hv : Spells .value v) :
    Accepts member k v s s := by
  intro c w w' t hw hw' ht hc
  rw [hmember]
  exact ends_otherMember_of hw hw' hv ht hc fun d hd => ⟨rfl, hd⟩

theorem ends_trail_follows {ms : List (String × List UInt8)} {t r : List UInt8} (ht : Trail ms t)
    (hf : Follows member ms s s') {n : Nat} (hn : ms.length < n) (h : c.rest = t ++ r)
    {good : σ → Cursor → Prop} {bad : Cursor → Prop}
    (hgood : ∀ e, e.rest = Byte.closeBrace :: r → good s' e) :
    Ends (membersUpTo member n false s) c good bad := by
  induction ht generalizing s n c with
  | close hw =>
    obtain ⟨n, rfl⟩ := Nat.exists_eq_add_of_lt hn
    cases hf
    rw [List.append_assoc] at h
    exact ends_membersUpTo_close hw h hgood
  | more hw hw' hm ht ih =>
    obtain ⟨n, rfl⟩ := Nat.exists_eq_add_of_lt hn
    obtain ⟨q, w1, w2, rfl, hq, hw1, hw2, -⟩ := hm
    cases hf with
    | cons hfirst hf =>
      simp only [List.append_assoc, List.cons_append] at h
      refine ends_membersUpTo_next hw hw' hq h fun c1 hc1 => ?_
      refine (hfirst c1 w1 w2 _ hw1 hw2 (ht.spells.ended_members r) hc1).mono ?_ fun _ h => h.elim
      rintro _ c2 ⟨rfl, hc2⟩
      refine ih hf ?_ hc2
      simp only [List.length_cons]
      omega

/-- The members of an object are followed to their end. -/
theorem ends_members_follows {ms : List (String × List UInt8)} {u t : List UInt8}
    (hms : Members ms (Byte.openBrace :: u)) (hf : Follows member ms s s') (h : c.rest = u ++ t)
    {good : σ → Cursor → Prop} {bad : Cursor → Prop}
    (hgood : ∀ e, e.rest = Byte.closeBrace :: t → good s' e) :
    Ends (members member s) c good bad := by
  unfold members
  rw [ends_bind, ends_get]
  cases hms with
  | @none w hw =>
    cases hf
    rw [List.append_assoc] at h
    exact ends_membersUpTo_close hw h hgood
  | @some k v w m u ms hw hm ht =>
    obtain ⟨q, w1, w2, rfl, hq, hw1, hw2, -⟩ := hm
    cases hf with
    | cons hfirst hf =>
      have hcount := (Trail.bounds ht).1
      simp only [List.append_assoc, List.cons_append] at h
      refine ends_membersUpTo_first hw hq h fun c1 hc1 => ?_
      refine (hfirst c1 w1 w2 _ hw1 hw2 (ht.spells.ended_members t) hc1).mono ?_ fun _ h => h.elim
      rintro _ c2 ⟨rfl, hc2⟩
      refine ends_trail_follows ht hf ?_ hc2 hgood
      rw [h]
      simp only [List.length_append, List.length_cons]
      omega

/-- A record in an object is what its members make of it. -/
theorem yields_record {ms : List (String × List UInt8)} {u : List UInt8} {room : Nat}
    {name : String} {finish : σ → Reader α} {fromItems : Reader α} {a : α} (hms : Members ms u)
    (hf : Follows member ms s s') (hfinish : finish s' = pure a) :
    Yields (record (room + 1) name (members member s >>= finish) fromItems) u a := by
  intro c w t hw _ h
  obtain ⟨u, rfl⟩ : ∃ u', u = Byte.openBrace :: u' := by
    cases hms <;> exact ⟨_, rfl⟩
  refine ends_record_object hw h fun d hd => ?_
  rw [ends_bind]
  refine ends_members_follows hms hf hd fun e he => ?_
  rw [hfinish]
  exact ends_closeObject_of Blanks.nil he fun e' he' => ⟨rfl, he'⟩

end Members

/-! ## Fields in any order -/

theorem spells_of_mem_trail {ms : List (String × List UInt8)} {t : List UInt8} (h : Trail ms t) :
    ∀ m ∈ ms, Spells .value m.2 := by
  induction h with
  | close => exact List.forall_mem_nil _
  | more _ _ hm _ ih =>
    obtain ⟨_, _, _, -, -, -, -, hv⟩ := hm
    exact List.forall_mem_cons.mpr ⟨hv, ih⟩

theorem spells_of_mem_members {ms : List (String × List UInt8)} {u : List UInt8}
    (h : Members ms u) : ∀ m ∈ ms, Spells .value m.2 := by
  cases h with
  | none => exact List.forall_mem_nil _
  | some _ hm ht =>
    obtain ⟨_, _, _, -, -, -, -, hv⟩ := hm
    exact List.forall_mem_cons.mpr ⟨hv, spells_of_mem_trail ht⟩

/-- What a field is in the end: what it was already if no text for it is left, or what its reader
makes of the one text that is left. -/
inductive Fills (item : Reader α) : Option α → List (List UInt8) → Option α → Prop
  | already (seen : Option α) : Fills item seen [] seen
  | ahead {v : List UInt8} {a : α} (h : Yields item v a) : Fills item none [v] (some a)

theorem Fills.eq_of_nil {item : Reader α} {seen final : Option α} (h : Fills item seen [] final) :
    seen = final := by
  cases h
  rfl

theorem Fills.of_cons {item : Reader α} {seen final : Option α} {v : List UInt8}
    {left : List (List UInt8)} (h : Fills item seen (v :: left) final) :
    ∃ a, seen = none ∧ Yields item v a ∧ left = [] ∧ final = some a := by
  cases h with
  | ahead h => exact ⟨_, rfl, h, rfl, rfl⟩

/-- A field of a record, with the reader of its value and the place that the value has in the state.
-/
structure Slot (member : String → σ → Reader σ) where
  name : String
  {α : Type}
  item : Reader α
  get : σ → Option α
  put : Option α → σ → σ
  member_eq (s : σ) : member name s = field name (get s) item >>= fun x => pure (put x s)
  get_put (x : Option α) (s : σ) : get (put x s) = x

/-- The fields of a record. They have different names and places, and nothing is read but them. -/
structure Slots (member : String → σ → Reader σ) where
  fields : List (Slot member)
  unique : ∀ f ∈ fields, ∀ g ∈ fields, f.name = g.name → f = g
  apart : ∀ f ∈ fields, ∀ g ∈ fields, f.name ≠ g.name → ∀ x s, g.get (f.put x s) = g.get s
  ext : ∀ s s', (∀ f ∈ fields, f.get s = f.get s') → s = s'
  other : ∀ k s, (∀ f ∈ fields, f.name ≠ k) → member k s = otherMember s

section Slots

variable {member : String → σ → Reader σ} (slots : Slots member) {ms : List (String × List UInt8)}
  {s : σ} (s' : σ)

include slots

/-- Members in any order are followed if the text of each field is read and no field has two. What
the other members have for their values makes no difference. -/
theorem Slots.follows (hspells : ∀ m ∈ ms, Spells .value m.2)
    (h : ∀ f ∈ slots.fields, Fills f.item (f.get s) (textsOf f.name ms) (f.get s')) :
    Follows member ms s s' := by
  induction ms generalizing s with
  | nil =>
    have heq : s = s' := slots.ext s s' fun f hf => (h f hf).eq_of_nil
    exact heq ▸ .nil s
  | cons m ms ih =>
    obtain ⟨k, v⟩ := m
    have htail : ∀ m ∈ ms, Spells .value m.2 := fun m hm =>
      hspells m (List.mem_cons_of_mem _ hm)
    by_cases hfield : ∃ f ∈ slots.fields, f.name = k
    · obtain ⟨f, hf, rfl⟩ := hfield
      -- the text of the field stands here, and none for it follows
      have hfills := h f hf
      rw [textsOf_cons_self] at hfills
      obtain ⟨a, hseen, hyields, hleft, hfinal⟩ := hfills.of_cons
      have hmember : member f.name s =
          field f.name none f.item >>= fun x => pure (f.put x s) := by
        rw [f.member_eq, hseen]
      refine .cons (accepts_field hmember hyields) (ih htail fun g hg => ?_)
      by_cases hname : f.name = g.name
      · obtain rfl := slots.unique f hf g hg hname
        rw [f.get_put, hleft, hfinal]
        exact .already _
      · rw [slots.apart f hf g hg hname, ← textsOf_cons_of_ne hname v ms]
        exact h g hg
    · have hne : ∀ f ∈ slots.fields, f.name ≠ k := fun f hf hname => hfield ⟨f, hf, hname⟩
      refine .cons (accepts_other (slots.other k s hne) (hspells (k, v) List.mem_cons_self))
        (ih htail fun f hf => ?_)
      rw [← textsOf_cons_of_ne (hne f hf).symm v ms]
      exact h f hf

/-- A record is read from an object with its fields in any order, whatever stands beside them. -/
theorem Slots.yields_record {u : List UInt8} {room : Nat} {name : String} {finish : σ → Reader α}
    {fromItems : Reader α} {a : α} (hms : Members ms u)
    (h : ∀ f ∈ slots.fields, Fills f.item (f.get s) (textsOf f.name ms) (f.get s'))
    (hfinish : finish s' = pure a) :
    Yields (record (room + 1) name (members member s >>= finish) fromItems) u a :=
  Reader.yields_record hms (slots.follows s' (spells_of_mem_members hms) h) hfinish

end Slots

end Reader

/-! ## Printed values -/

/-- A text is a value as it is printed, without blanks or over several lines at some level. -/
def Written (v : Value) (u : List UInt8) : Prop :=
  u = Utf8.encodeChars v.chars ∨ ∃ level, u = Utf8.encodeChars (v.indentedChars level)

theorem written_render (v : Value) : Written v (Utf8.encode v.render) :=
  .inl v.encode_render

theorem written_renderIndented (v : Value) : Written v (Utf8.encode v.renderIndented) :=
  .inr ⟨0, by rw [Utf8.encode, Value.renderIndented, String.toList_ofList]⟩

namespace Written

variable {u : List UInt8}

theorem string {s : String} (h : Written (.string s) u) : SpellsString s u := by
  obtain rfl | ⟨level, rfl⟩ := h
  · rw [Value.chars]
    exact spellsString_stringChars s
  · rw [Value.indentedChars]
    exact spellsString_stringChars s

theorem bool {b : Bool} (h : Written (.bool b) u) : u = Utf8.encodeChars (boolChars b) := by
  obtain rfl | ⟨level, rfl⟩ := h
  · rw [Value.chars]
  · rw [Value.indentedChars]

theorem natural {n : UInt64} (h : Written (.number (.natural n)) u) : u = numeral n.toNat := by
  obtain rfl | ⟨level, rfl⟩ := h
  · rw [Value.chars]
    rfl
  · rw [Value.indentedChars]
    rfl

/-- An object is printed with its members in their order, each of them printed. -/
theorem object {ms : List (String × Value)} (h : Written (.object ms) u) :
    ∃ text : Value → List UInt8, (∀ v, Written v (text v)) ∧
      Members (ms.map fun m => (m.1, text m.2)) u := by
  obtain rfl | ⟨level, rfl⟩ := h
  · exact ⟨_, fun v => .inl rfl, members_of_spells fun m _ => spells_chars m.2⟩
  · exact ⟨_, fun v => .inr ⟨level + 1, rfl⟩,
      members_of_spells_indented fun m _ => spells_indentedChars (level + 1) m.2⟩

end Written

end Gatehouse.Json
