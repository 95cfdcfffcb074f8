import Gatehouse.Proofs.Json.Halting

/-!
# Reading any value

The reader of any value comes to the end of every text that is one, or it halts inside: a number can
be too large for it, a string can lack half a surrogate pair, and lists can be nested too deep
(`settles`). A reader that expects another kind of value and halts for that leaves the cursor at a
place of the same sort (`ends_mismatch_astray`).
-/

namespace Gatehouse.Json.Reader

variable {c : Cursor} {w t : List UInt8}

/-! ## Words, numbers and strings -/

section Atoms

variable {inner : Option (Reader Value)} {bad : Cursor → Prop}

theorem ends_valueWith_word {b : UInt8} {bytes : List UInt8} (hw : Blanks w)
    (h : c.rest = w ++ b :: (bytes ++ t))
    (hword : (b = Byte.smallN ∧ bytes = [0x75, 0x6C, 0x6C]) ∨
      (b = Byte.smallT ∧ bytes = [0x72, 0x75, 0x65]) ∨
      (b = Byte.smallF ∧ bytes = [0x61, 0x6C, 0x73, 0x65])) :
    Ends (valueWith none inner) c (fun _ d => d.rest = t) bad := by
  have hrest : ∀ {v : Value} {d : Cursor}, d.rest = b :: (bytes ++ t) →
      Ends (skip >>= fun _ => word bytes >>= fun _ => pure v) d (fun _ d => d.rest = t) bad := by
    intro v d hd
    rw [ends_bind, ends_skip, ends_bind]
    exact ends_word_of (by rw [Cursor.rest_step, hd]; rfl) fun e he => he
  unfold valueWith
  rw [ends_placed, ends_bind]
  rcases hword with ⟨rfl, rfl⟩ | ⟨rfl, rfl⟩ | ⟨rfl, rfl⟩
  · exact ends_ahead?_of hw (by decide) h fun d hd => hrest hd
  · exact ends_ahead?_of hw (by decide) h fun d hd => hrest hd
  · exact ends_ahead?_of hw (by decide) h fun d hd => hrest hd

theorem ends_valueWith_negative {m : List UInt8} (hw : Blanks w) (hm : Magnitude m) (ht : Ended t)
    (h : c.rest = w ++ Byte.minus :: (m ++ t)) :
    Ends (valueWith none inner) c (fun _ d => d.rest = t) fun d => Astray t d.rest := by
  unfold valueWith
  rw [ends_placed, ends_bind]
  refine ends_ahead?_of hw (by decide) h fun d hd => ?_
  show Ends (skip >>= fun _ => numberBody false >>= fun n => pure (Value.number n)) d _ _
  rw [ends_bind, ends_skip, ends_bind]
  exact (ends_numberBody_at hm ht (by rw [Cursor.rest_step, hd]; rfl)).mono (fun _ _ h => h)
    fun _ h => h.astray

theorem ends_valueWith_number {m : List UInt8} (hw : Blanks w) (hm : Magnitude m) (ht : Ended t)
    (h : c.rest = w ++ (m ++ t)) :
    Ends (valueWith none inner) c (fun _ d => d.rest = t) fun d => Astray t d.rest := by
  obtain ⟨b, u, rfl, hdigit⟩ := hm.exists_head
  unfold valueWith
  rw [ends_placed, ends_bind]
  refine ends_ahead?_of hw (not_blank_of_digit hdigit) h fun d hd => ?_
  split
  case h_9 heq =>
    cases heq
    rw [if_pos hdigit, ends_bind]
    exact (ends_numberBody_at hm ht hd).mono (fun _ _ h => h) fun _ h => h.astray
  all_goals
    next heq => cases heq <;> cases hdigit

theorem ends_valueWith_quoted {k : List UInt8} (hw : Blanks w) (hk : Inner k)
    (ht : Lexed false t) (h : c.rest = w ++ Byte.quote :: (k ++ Byte.quote :: t)) :
    Ends (valueWith none inner) c (fun _ d => d.rest = t) fun d => Astray t d.rest := by
  unfold valueWith
  rw [ends_placed, ends_bind]
  refine ends_ahead?_of hw (by decide) h fun d hd => ?_
  show Ends (skip >>= fun _ => stringBody >>= fun s => pure (Value.string s)) d _ _
  rw [ends_bind, ends_skip, ends_bind]
  refine (ends_stringBody_inner hk ht (by rw [Cursor.rest_step, hd]; rfl)).mono
    (fun _ _ h => h) ?_
  rintro e (rfl | he)
  · exact .here
  · exact .inr (.inr he)

end Atoms

/-! ## Lists and objects -/

theorem exists_valueWith (room : Nat) : ∃ inner, plainValue room = valueWith none inner := by
  cases room with
  | zero => exact ⟨none, rfl⟩
  | succ room => exact ⟨some (plainValue room), rfl⟩

/-- Where the readers of the items or members of a bracket come to a halt. -/
def AstrayWithin (t rest : List UInt8) : Prop :=
  ∃ u, Tail u ∧ Astray (u ++ t) rest

theorem ends_plainValue_list {x : List UInt8} (hw : Blanks w)
    (h : c.rest = w ++ Byte.openBracket :: x)
    (hitems : ∀ room d, d.rest = x →
      Ends (items (plainValue room)) d
        (fun _ e => ∃ w, Blanks w ∧ e.rest = w ++ Byte.closeBracket :: t)
        fun e => AstrayWithin t e.rest) (room : Nat) :
    Ends (plainValue room) c (fun _ d => d.rest = t) fun d => Astray t d.rest := by
  have hstuck : Stuck (Byte.openBracket :: x) :=
    stuck_cons (by decide) (by decide) (by decide) (by decide)
  cases room with
  | zero =>
    show Ends (valueWith none none) c _ _
    unfold valueWith
    rw [ends_placed, ends_bind]
    refine ends_ahead?_of hw (by decide) h fun d hd => ?_
    show Astray t d.rest
    rw [hd]
    exact .inr (.inl hstuck)
  | succ room =>
    show Ends (valueWith none (some (plainValue room))) c _ _
    unfold valueWith
    rw [ends_placed, ends_bind]
    refine ends_ahead?_of hw (by decide) h fun d hd => ?_
    show Ends
      (skip >>= fun _ => list (items (plainValue room)) >>= fun vs => pure (Value.array vs)) d _ _
    rw [ends_bind, ends_skip, ends_bind]
    unfold list
    rw [ends_enclosed]
    refine (hitems room _ (by rw [Cursor.rest_step, hd]; rfl)).mono ?_ ?_
    · rintro vs e ⟨w', hw', he⟩
      exact ends_closeList_of hw' he fun e' he' => he'
    · rintro e ⟨u, hu, he⟩
      exact ends_closeList_astray hu he

theorem ends_plainValue_object {x : List UInt8} (hw : Blanks w)
    (h : c.rest = w ++ Byte.openBrace :: x)
    (hbody : ∀ room d, d.rest = x →
      Ends (objectBody none (plainValue room)) d
        (fun _ e => ∃ w, Blanks w ∧ e.rest = w ++ Byte.closeBrace :: t)
        fun e => AstrayWithin t e.rest) (room : Nat) :
    Ends (plainValue room) c (fun _ d => d.rest = t) fun d => Astray t d.rest := by
  have hstuck : Stuck (Byte.openBrace :: x) :=
    stuck_cons (by decide) (by decide) (by decide) (by decide)
  cases room with
  | zero =>
    show Ends (valueWith none none) c _ _
    unfold valueWith
    rw [ends_placed, ends_bind]
    refine ends_ahead?_of hw (by decide) h fun d hd => ?_
    show Astray t d.rest
    rw [hd]
    exact .inr (.inl hstuck)
  | succ room =>
    show Ends (valueWith none (some (plainValue room))) c _ _
    unfold valueWith
    rw [ends_placed, ends_bind]
    refine ends_ahead?_of hw (by decide) h fun d hd => ?_
    show Ends (skip >>= fun _ => object (objectBody none (plainValue room))) d _ _
    rw [ends_bind, ends_skip]
    unfold object
    rw [ends_enclosed]
    refine (hbody room _ (by rw [Cursor.rest_step, hd]; rfl)).mono ?_ ?_
    · rintro v e ⟨w', hw', he⟩
      exact ends_closeObject_of hw' he fun e' he' => he'
    · rintro e ⟨u, hu, he⟩
      exact ends_closeObject_astray hu he

/-- The reader of any value comes to the end of a part of a text, or it halts inside. -/
def Settles : Form → List UInt8 → Prop
  | .value, v => ∀ {room : Nat} {c : Cursor} {w t : List UInt8}, Blanks w → c.rest = w ++ (v ++ t) →
      Ended t → Lexed false t →
      Ends (plainValue room) c (fun _ d => d.rest = t) fun d => Astray t d.rest
  | .items, u => ∀ {room n : Nat} {c : Cursor} {t : List UInt8}, c.rest = u ++ t →
      c.rest.length < n → Lexed false t →
      Ends (itemsUpTo (plainValue room) n false) c
        (fun _ d => ∃ w, Blanks w ∧ d.rest = w ++ Byte.closeBracket :: t)
        fun d => AstrayWithin t d.rest
  | .pair, p => ∀ {room : Nat} {m : Dictionary Value} {c : Cursor} {t : List UInt8},
      c.rest = p ++ t → Ended t → Lexed false t →
      Ends (key >>= fun k => valueMember (plainValue room) k m) c (fun _ d => d.rest = t)
        fun d => Astray t d.rest
  | .members, u => ∀ {room n : Nat} {m : Dictionary Value} {c : Cursor} {t : List UInt8},
      c.rest = u ++ t → c.rest.length < n → Lexed false t →
      Ends (membersUpTo (valueMember (plainValue room)) n false m) c
        (fun _ d => ∃ w, Blanks w ∧ d.rest = w ++ Byte.closeBrace :: t)
        fun d => AstrayWithin t d.rest

/-- A value that opens no bracket is read the same with any room. -/
theorem settles_of_atom {v : List UInt8}
    (hatom : ∀ {inner : Option (Reader Value)} {c : Cursor} {w t : List UInt8}, Blanks w →
      c.rest = w ++ (v ++ t) → Ended t → Lexed false t →
      Ends (valueWith none inner) c (fun _ d => d.rest = t) fun d => Astray t d.rest) :
    Settles .value v := by
  intro room c w t hw h hend ht
  obtain ⟨inner, hinner⟩ := exists_valueWith room
  rw [hinner]
  exact hatom hw h hend ht

theorem ends_value_within {room : Nat} {v u : List UInt8} (hv : Settles .value v)
    (hu : Spells .items u) (ht : Lexed false t) (h : c.rest = v ++ (u ++ t))
    {good : Value → Cursor → Prop} (hgood : ∀ a d, d.rest = u ++ t → good a d) :
    Ends (plainValue room) c good fun d => AstrayWithin t d.rest := by
  have hlexed : Lexed false (u ++ t) := (woven_of_spells hu).lexed ht
  exact (hv Blanks.nil h (hu.ended_items t) hlexed).mono hgood fun d hd => ⟨u, .inl hu, hd⟩

theorem ends_pair_within {room : Nat} {m : Dictionary Value} {p u : List UInt8}
    (hp : Settles .pair p) (hu : Spells .members u) (ht : Lexed false t)
    (h : c.rest = p ++ (u ++ t)) {good : Dictionary Value → Cursor → Prop}
    (hgood : ∀ m d, d.rest = u ++ t → good m d) :
    Ends (key >>= fun k => valueMember (plainValue room) k m) c good
      fun d => AstrayWithin t d.rest := by
  have hlexed : Lexed false (u ++ t) := (woven_of_spells hu).lexed ht
  exact (hp h (hu.ended_members t) hlexed).mono hgood fun d hd => ⟨u, .inr hu, hd⟩

theorem settles_pair {k w w' v : List UInt8} (hk : Inner k) (hw : Blanks w) (hw' : Blanks w')
    (hv : Spells .value v) (ihv : Settles .value v) :
    Settles .pair (Byte.quote :: (k ++ Byte.quote :: (w ++ Byte.colon :: (w' ++ v)))) := by
  intro room m c t h hend ht
  simp only [List.cons_append, List.append_assoc] at h
  have hrest : Lexed false (w ++ Byte.colon :: (w' ++ (v ++ t))) := by
    rw [lexed_append hw.code, lexed_cons rfl, lexed_append hw'.code]
    exact (woven_of_spells hv).lexed ht
  unfold key
  rw [ends_bind, ends_bind, ends_skip]
  refine (ends_stringBody_inner hk hrest (by rw [Cursor.rest_step, h]; rfl)).mono ?_ ?_
  · intro k d hd
    unfold valueMember
    rw [ends_bind]
    refine ends_colon_of hw hd fun e he => ?_
    exact .bind (ihv hw' he hend ht) fun _ _ h => h
  · rintro d (hd | hd)
    · rw [hd]
      refine .inr (.inl ?_)
      rw [stuck_append hw]
      exact stuck_cons (by decide) (by decide) (by decide) (by decide)
    · exact .inr (.inr hd)

theorem settles {f : Form} {u : List UInt8} (hu : Spells f u) : Settles f u := by
  induction hu with
  | null => exact settles_of_atom fun hw h _ _ => ends_valueWith_word hw h (.inl ⟨rfl, rfl⟩)
  | true => exact settles_of_atom fun hw h _ _ => ends_valueWith_word hw h (.inr (.inl ⟨rfl, rfl⟩))
  | false => exact settles_of_atom fun hw h _ _ => ends_valueWith_word hw h (.inr (.inr ⟨rfl, rfl⟩))
  | number hm => exact settles_of_atom fun hw h hend _ => ends_valueWith_number hw hm hend h
  | negative hm => exact settles_of_atom fun hw h hend _ => ends_valueWith_negative hw hm hend h
  | string hk =>
    refine settles_of_atom fun hw h _ ht => ?_
    rw [List.cons_append, List.append_assoc] at h
    exact ends_valueWith_quoted hw hk ht h
  | noItems hu =>
    intro room c w t hw h _ _
    rw [List.cons_append, List.append_assoc] at h
    refine ends_plainValue_list hw h (fun room d hd => ?_) room
    unfold items
    rw [ends_bind, ends_get, itemsUpTo, ends_bind]
    refine ends_hasItem_close hu hd fun e he => ?_
    rw [if_neg Bool.false_ne_true]
    exact ⟨[], Blanks.nil, he⟩
  | @list w' v u hw' hv hu ihv ihu =>
    intro room c w t hw h hend ht
    obtain ⟨b, v, rfl, hb⟩ := hv.exists_head
    rw [List.cons_append, List.append_assoc, List.append_assoc] at h
    refine ends_plainValue_list hw h (fun room d hd => ?_) room
    unfold items
    rw [ends_bind, ends_get, itemsUpTo, ends_bind]
    refine ends_hasItem_first hw' hb hd fun e he => ?_
    rw [if_pos rfl, ends_bind]
    refine ends_value_within ihv hu ht he fun _ e' he' => ?_
    refine .bind (ihu he' ?_ ht) fun _ _ h => h
    simp only [hd, he', List.length_append, List.length_cons]
    omega
  | noMembers hu =>
    intro room c w t hw h _ _
    rw [List.cons_append, List.append_assoc] at h
    refine ends_plainValue_object hw h (fun room d hd => ?_) room
    unfold objectBody
    rw [ends_bind]
    refine ends_hasKey_close hu hd fun e he => ?_
    rw [if_neg Bool.false_ne_true]
    exact ⟨[], Blanks.nil, he⟩
  | @object w' p u hw' hp hu ihp ihu =>
    intro room c w t hw h hend ht
    obtain ⟨p, rfl⟩ := hp.exists_quote
    rw [List.cons_append, List.append_assoc, List.append_assoc] at h
    refine ends_plainValue_object hw h (fun room d hd => ?_) room
    unfold objectBody
    rw [ends_bind]
    refine ends_hasKey_first hw' hd fun e he => ?_
    rw [if_pos rfl]
    show Ends (key >>= fun k => valueMember (plainValue room) k [] >>= fun m =>
      get >>= fun c => membersUpTo (valueMember (plainValue room)) (c.rest.length + 1) false m >>=
        fun m => pure (Value.object m)) e _ _
    rw [← bind_assoc, ends_bind]
    refine ends_pair_within ihp hu ht he fun m e' he' => ?_
    rw [ends_bind, ends_get]
    exact .bind (ihu he' (Nat.lt_succ_self _) ht) fun _ _ h => h
  | closeList hw =>
    intro room n c t h hn _
    obtain ⟨n, rfl⟩ : ∃ k, n = k + 1 := ⟨n - 1, by omega⟩
    rw [List.append_assoc] at h
    rw [itemsUpTo, ends_bind]
    refine ends_hasItem_close hw h fun d hd => ?_
    rw [if_neg Bool.false_ne_true]
    exact ⟨[], Blanks.nil, hd⟩
  | @item w w' v u hw hw' hv hu ihv ihu =>
    intro room n c t h hn ht
    obtain ⟨n, rfl⟩ : ∃ k, n = k + 1 := ⟨n - 1, by omega⟩
    obtain ⟨b, v, rfl, hb⟩ := hv.exists_head
    rw [List.append_assoc, List.cons_append, List.append_assoc, List.append_assoc] at h
    rw [itemsUpTo, ends_bind]
    refine ends_hasItem_next hw hw' hb h fun d hd => ?_
    rw [if_pos rfl, ends_bind]
    refine ends_value_within ihv hu ht hd fun _ e he => ?_
    refine .bind (ihu he ?_ ht) fun _ _ h => h
    simp only [h, List.length_append, List.length_cons] at hn
    simp only [he, List.length_append]
    omega
  | pair hk hw hw' hv ihv => exact settles_pair hk hw hw' hv ihv
  | closeObject hw =>
    intro room n m c t h hn _
    obtain ⟨n, rfl⟩ : ∃ k, n = k + 1 := ⟨n - 1, by omega⟩
    rw [List.append_assoc] at h
    rw [membersUpTo, ends_bind]
    refine ends_hasKey_close hw h fun d hd => ?_
    rw [if_neg Bool.false_ne_true]
    exact ⟨[], Blanks.nil, hd⟩
  | @member w w' p u hw hw' hp hu ihp ihu =>
    intro room n m c t h hn ht
    obtain ⟨n, rfl⟩ : ∃ k, n = k + 1 := ⟨n - 1, by omega⟩
    obtain ⟨p, rfl⟩ := hp.exists_quote
    rw [List.append_assoc, List.cons_append, List.append_assoc, List.append_assoc] at h
    rw [membersUpTo, ends_bind]
    refine ends_hasKey_next hw hw' h fun d hd => ?_
    rw [if_pos rfl, ← bind_assoc, ends_bind]
    refine ends_pair_within ihp hu ht hd fun m e he => ihu he ?_ ht
    simp only [h, List.length_append, List.length_cons] at hn
    simp only [he, List.length_append]
    omega

/-! ## Values whose inside is not read -/

section Opened

variable {x : List UInt8}

theorem ends_closeList_opened (hv : Spells .value (Byte.openBracket :: x)) (h : c.rest = x ++ t) :
    Ends closeList c (fun _ d => Astray t d.rest) fun d => Astray t d.rest := by
  cases hv with
  | number hm =>
    obtain ⟨_, _, heq, hdigit⟩ := hm.exists_head
    cases heq
    cases hdigit
  | noItems hw =>
    refine ends_closeList_astray (.inl (.closeList hw)) ?_
    rw [h]
    exact .here
  | @list w v u hw hv hu =>
    obtain ⟨b, v, rfl, hb⟩ := hv.exists_head
    refine ends_closeList_astray (.inl hu) (.inr (.inl ?_))
    rw [h, List.append_assoc, stuck_append hw]
    exact hb.stuck

theorem ends_closeObject_opened (hv : Spells .value (Byte.openBrace :: x)) (h : c.rest = x ++ t) :
    Ends closeObject c (fun _ d => Astray t d.rest) fun d => Astray t d.rest := by
  cases hv with
  | number hm =>
    obtain ⟨_, _, heq, hdigit⟩ := hm.exists_head
    cases heq
    cases hdigit
  | noMembers hw =>
    refine ends_closeObject_astray (.inr (.closeObject hw)) ?_
    rw [h]
    exact .here
  | @object w p u hw hp hu =>
    obtain ⟨p, rfl⟩ := hp.exists_quote
    refine ends_closeObject_astray (.inr hu) (.inr (.inl ?_))
    rw [h, List.append_assoc, stuck_append hw]
    exact Starts.of_quote.stuck

end Opened

/-! ## Values of another kind -/

section Mismatch

variable {expected : String} {α : Type} {good : α → Cursor → Prop}

/-- A number where something else was asked for is read first. -/
theorem ends_mismatch_number {m : List UInt8} (hm : Magnitude m) (hend : Ended t)
    (h : c.rest = m ++ t) : Ends (mismatch expected) c good fun d => AtNumber t d.rest := by
  obtain ⟨b, u, rfl, hdigit⟩ := hm.exists_head
  unfold mismatch
  rw [ends_placed, ends_bind, ends_peek?, h, List.cons_append, List.head?_cons]
  split
  case h_8 =>
    rw [Option.map_some, Option.getD_some, if_pos hdigit]
    exact .bind (ends_numberBody_at hm hend h) fun _ _ h => .inl h
  all_goals
    next heq =>
      cases heq
      cases hdigit

theorem ends_mismatch_negative {m : List UInt8} (hm : Magnitude m) (hend : Ended t)
    (h : c.rest = Byte.minus :: (m ++ t)) :
    Ends (mismatch expected) c good fun d => AtNumber t d.rest := by
  unfold mismatch
  rw [ends_placed, ends_bind, ends_peek?, h, List.head?_cons]
  show Ends (skip >>= fun _ => numberBody false >>= fun n =>
    unplaced (.wrongType n.found expected)) c _ _
  rw [ends_bind, ends_skip]
  exact .bind (ends_numberBody_at hm hend (by rw [Cursor.rest_step, h]; rfl)) fun _ _ h => .inl h

theorem ends_mismatch_astray {v : List UInt8} (hv : Spells .value v) (h : c.rest = v ++ t)
    (hend : Ended t) (ht : Lexed false t) :
    Ends (mismatch expected) c good fun d => Astray t d.rest := by
  have hword : ∀ {b : UInt8} {bytes : List UInt8} {fault : Fault}, c.rest = b :: (bytes ++ t) →
      Ends (skip >>= fun _ => word bytes >>= fun _ => unplaced fault) c good
        fun d => Astray t d.rest := by
    intro b bytes fault h
    rw [ends_bind, ends_skip, ends_bind]
    refine ends_word_of (by rw [Cursor.rest_step, h]; rfl) fun d hd => ?_
    show Astray t d.rest
    rw [hd]
    exact .here
  have hbracket : ∀ {b : UInt8} {u : List UInt8}, Starts b → c.rest = b :: u →
      Astray t c.rest := by
    intro b u hb h
    rw [h]
    exact .inr (.inl hb.stuck)
  cases hv with
  | number hm => exact (ends_mismatch_number hm hend h).mono (fun _ _ h => h) fun _ h => h.astray
  | negative hm =>
    exact (ends_mismatch_negative hm hend h).mono (fun _ _ h => h) fun _ h => h.astray
  | null =>
    unfold mismatch
    rw [ends_placed, ends_bind, ends_peek?, h]
    exact hword h
  | true =>
    unfold mismatch
    rw [ends_placed, ends_bind, ends_peek?, h]
    exact hword h
  | false =>
    unfold mismatch
    rw [ends_placed, ends_bind, ends_peek?, h]
    exact hword h
  | @string k hk =>
    rw [List.cons_append, List.append_assoc] at h
    unfold mismatch
    rw [ends_placed, ends_bind, ends_peek?, h, List.head?_cons]
    show Ends (skip >>= fun _ => stringBody >>= fun s =>
      unplaced (.wrongType (.string s) expected)) c _ _
    rw [ends_bind, ends_skip, ends_bind]
    refine (ends_stringBody_inner hk ht (by rw [Cursor.rest_step, h]; rfl)).mono ?_ ?_
    · rintro s d rfl
      exact .here
    · rintro d (rfl | hd)
      · exact .here
      · exact .inr (.inr hd)
  | noItems | list =>
    unfold mismatch
    rw [ends_placed, ends_bind, ends_peek?, h]
    exact hbracket (by unfold Starts; decide) h
  | noMembers | object =>
    unfold mismatch
    rw [ends_placed, ends_bind, ends_peek?, h]
    exact hbracket (by unfold Starts; decide) h

end Mismatch

/-- A string is read to its end or not at all. -/
theorem ends_string_astray {expected : String} {v : List UInt8} (hv : Spells .value v)
    (hw : Blanks w) (h : c.rest = w ++ (v ++ t)) (hend : Ended t) (ht : Lexed false t) :
    Ends (string expected) c (fun _ d => Astray t d.rest) fun d => Astray t d.rest := by
  obtain ⟨b, u, rfl, hb⟩ := hv.exists_head
  unfold string
  rw [ends_placed, ends_bind]
  refine ends_ahead?_of hw hb.1 h fun d hd => ?_
  split
  · next heq => cases heq
  · next heq =>
    cases heq
    cases hv with
    | number hm =>
      obtain ⟨x, _, hx, hdigit⟩ := hm.exists_head
      cases hx
      cases hdigit
    | @string k hk =>
      have hstep : d.step.rest = k ++ Byte.quote :: t := by
        rw [Cursor.rest_step, hd]
        exact List.append_assoc k [Byte.quote] t
      rw [ends_bind, ends_skip]
      refine (ends_stringBody_inner hk ht hstep).mono ?_ ?_
      · rintro s d rfl
        exact .here
      · rintro d (rfl | hd)
        · exact .here
        · exact .inr (.inr hd)
  · exact ends_mismatch_astray hv hd hend ht

/-- An optional value is read to its end or not at all if the value is. -/
theorem ends_optional_astray {α : Type} {item : Reader α} {v : List UInt8} (hv : Spells .value v)
    (hw : Blanks w) (h : c.rest = w ++ (v ++ t))
    (hitem : ∀ d, d.rest = v ++ t →
      Ends item d (fun _ e => Astray t e.rest) fun e => Astray t e.rest) :
    Ends (optional item) c (fun _ d => Astray t d.rest) fun d => Astray t d.rest := by
  obtain ⟨b, u, rfl, hb⟩ := hv.exists_head
  unfold optional
  rw [ends_bind]
  refine ends_ahead?_of hw hb.1 h fun d hd => ?_
  split
  · next heq =>
    cases heq
    cases hv with
    | number hm =>
      obtain ⟨x, _, hx, hdigit⟩ := hm.exists_head
      cases hx
      cases hdigit
    | null =>
      rw [ends_bind, ends_skip, ends_bind]
      refine ends_word_of (by rw [Cursor.rest_step, hd]; rfl) fun e he => ?_
      show Astray t e.rest
      rw [he]
      exact .here
  · exact .bind (hitem d hd) fun _ _ h => h

end Gatehouse.Json.Reader
