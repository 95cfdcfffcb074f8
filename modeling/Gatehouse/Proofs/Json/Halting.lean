import Gatehouse.Proofs.Json.Fields
import Gatehouse.Proofs.Json.Lexing

/-!
# Where readers come to a halt

A reader that stands before a value and halts leaves the cursor somewhere in the text. `Astray t`
says where it can be when `t` is what stands behind the value: at the end of a value inside, with
nothing but closing brackets and further items between it and `t` (`Above`); at a place where no
comma and no closing bracket comes next (`Stuck`); or inside a string. The ends of lists and objects
that are read after a halt keep it like that (`ends_closeList_astray`, `ends_closeObject_astray`).
-/

namespace Gatehouse.Json

/-- What stands behind an item or a member up to the end of its list or object. -/
def Tail (u : List UInt8) : Prop :=
  Spells .items u ∨ Spells .members u

/-- Between the start of a text and `t` values are completed and brackets closed. -/
inductive Above (t : List UInt8) : List UInt8 → Prop
  | here : Above t t
  | up {u s : List UInt8} : Tail u → Above t s → Above t (u ++ s)

/-- Neither a comma nor a closing bracket comes next. -/
def Stuck (t : List UInt8) : Prop :=
  ∀ b, (t.dropWhile Byte.isBlank).head? = some b →
    b ≠ Byte.comma ∧ b ≠ Byte.closeBracket ∧ b ≠ Byte.closeBrace

/-- Where a reader may have come to a halt inside a value in front of `t`. -/
def Astray (t rest : List UInt8) : Prop :=
  Above t rest ∨ Stuck rest ∨ Lexed true rest

theorem Astray.here {t : List UInt8} : Astray t t :=
  .inl .here

theorem Above.trans {t s r : List UInt8} (hs : Above t s) (hr : Above s r) : Above t r := by
  induction hr with
  | here => exact hs
  | up hu _ ih => exact .up hu ih

section Stuck

variable {w t : List UInt8} {b : UInt8}

theorem stuck_append (hw : Blanks w) : Stuck (w ++ t) ↔ Stuck t := by
  rw [Stuck, Stuck, hw.dropWhile_append]

theorem stuck_cons (hb : Byte.isBlank b = false) (hcomma : b ≠ Byte.comma)
    (hbracket : b ≠ Byte.closeBracket) (hbrace : b ≠ Byte.closeBrace) : Stuck (b :: t) := by
  intro x hx
  rw [List.dropWhile_cons_of_neg (by rw [hb]; decide)] at hx
  cases hx
  exact ⟨hcomma, hbracket, hbrace⟩

theorem Stuck.head (h : Stuck (b :: t)) (hb : Byte.isBlank b = false) :
    b ≠ Byte.comma ∧ b ≠ Byte.closeBracket ∧ b ≠ Byte.closeBrace :=
  h b (by rw [List.dropWhile_cons_of_neg (by rw [hb]; decide)]; rfl)

theorem Starts.stuck (hb : Starts b) : Stuck (b :: t) :=
  stuck_cons hb.1 hb.2.1 hb.2.2.2.1 hb.2.2.2.2

theorem Starts.of_quote : Starts Byte.quote := by
  unfold Starts
  decide

end Stuck

/-! ## Closing brackets -/

/-- What closes a bracket starts with the closing bracket or with a comma and a value. -/
theorem Tail.cases {u : List UInt8} (hu : Tail u) :
    ∃ w v, Blanks w ∧ u = w ++ v ∧ Tail v ∧
      (v = [Byte.closeBracket] ∨ v = [Byte.closeBrace] ∨
        ∃ w' b x, Blanks w' ∧ Starts b ∧ v = Byte.comma :: (w' ++ b :: x)) := by
  rcases hu with hu | hu
  · cases hu with
    | @closeList w hw => exact ⟨w, _, hw, rfl, .inl (.closeList Blanks.nil), .inl rfl⟩
    | @item w w' v t hw hw' hv ht =>
      obtain ⟨b, x, rfl, hb⟩ := hv.exists_head
      exact ⟨w, _, hw, rfl, .inl (.item Blanks.nil hw' hv ht), .inr (.inr ⟨w', b, _, hw', hb, rfl⟩)⟩
  · cases hu with
    | @closeObject w hw => exact ⟨w, _, hw, rfl, .inr (.closeObject Blanks.nil), .inr (.inl rfl)⟩
    | @member w w' m t hw hw' hm ht =>
      obtain ⟨x, rfl⟩ := hm.exists_quote
      exact ⟨w, _, hw, rfl, .inr (.member Blanks.nil hw' hm ht),
        .inr (.inr ⟨w', _, _, hw', .of_quote, rfl⟩)⟩

theorem Tail.woven {u : List UInt8} (hu : Tail u) : Woven u := by
  rcases hu with hu | hu
  · exact woven_of_spells hu
  · exact woven_of_spells hu

/-- From above what closes a bracket and `t` some bracket is closed next. -/
theorem Above.exists_tail {u t r : List UInt8} (hu : Tail u) (h : Above (u ++ t) r) :
    ∃ v s, Tail v ∧ Above t s ∧ r = v ++ s := by
  cases h with
  | here => exact ⟨u, t, hu, .here, rfl⟩
  | up hv h => exact ⟨_, _, hv, (Above.up hu .here).trans h, rfl⟩

namespace Reader

variable {c : Cursor}

/-- The end of a list is read, or not found, from wherever an item's reader came to a halt. -/
theorem ends_closeList_astray {u t : List UInt8} (hu : Tail u) (h : Astray (u ++ t) c.rest) :
    Ends closeList c (fun _ d => Astray t d.rest) fun d => Astray t d.rest := by
  unfold closeList
  rw [ends_bind]
  rcases h with h | h | h
  · obtain ⟨v, s, hv, hs, hrest⟩ := h.exists_tail hu
    obtain ⟨w, v, hw, rfl, hv, hcases⟩ := hv.cases
    rw [List.append_assoc] at hrest
    rcases hcases with rfl | rfl | ⟨w', b, x, hw', hb, rfl⟩
    · refine ends_ahead?_of hw (by decide) hrest fun d hd => ?_
      show Astray t d.step.rest
      rw [Cursor.rest_step, hd]
      exact .inl hs
    · refine ends_ahead?_of hw (by decide) hrest fun d hd => ?_
      show Astray t d.rest
      rw [hd]
      exact .inl (.up hv hs)
    · refine ends_ahead?_of hw (by decide) hrest fun d hd => ?_
      show Ends (skip >>= fun _ => ahead? >>= _) d _ _
      rw [ends_bind, ends_skip, ends_bind]
      have hstep : d.step.rest = w' ++ b :: (x ++ s) := by
        rw [Cursor.rest_step, hd]
        exact List.append_assoc w' (b :: x) s
      refine ends_ahead?_of hw' hb.1 hstep fun e he => ?_
      have hstuck : Astray t e.rest := by
        rw [he]
        exact .inr (.inl hb.stuck)
      split
      · exact hstuck
      · exact hstuck
  · refine ends_ahead?_intro fun w d hw hd _ => ?_
    rw [hd, stuck_append hw] at h
    split
    · exact .inr (.inl h)
    · next hb =>
      rw [Cursor.rest_of_head? hb] at h
      exact absurd rfl (h.head (by decide)).2.1
    · next hb =>
      rw [Cursor.rest_of_head? hb] at h
      exact absurd rfl (h.head (by decide)).1
    · exact .inr (.inl h)
  · refine ends_ahead?_intro fun w d hw hd _ => ?_
    rw [hd, lexed_append hw.code] at h
    split
    · exact .inr (.inr h)
    · next hb =>
      rw [Cursor.rest_of_head? hb, lexed_cons rfl] at h
      exact .inr (.inr h)
    · next hb =>
      rw [Cursor.rest_of_head? hb, lexed_cons rfl] at h
      rw [ends_bind, ends_skip, ends_bind]
      refine ends_ahead?_intro fun w' e hw' he _ => ?_
      rw [he, lexed_append hw'.code] at h
      split
      · exact .inr (.inr h)
      · exact .inr (.inr h)
    · exact .inr (.inr h)

/-- The end of an object is read, or not found, from wherever a member's reader came to a halt. -/
theorem ends_closeObject_astray {u t : List UInt8} (hu : Tail u) (h : Astray (u ++ t) c.rest) :
    Ends closeObject c (fun _ d => Astray t d.rest) fun d => Astray t d.rest := by
  unfold closeObject
  rw [ends_bind]
  rcases h with h | h | h
  · obtain ⟨v, s, hv, hs, hrest⟩ := h.exists_tail hu
    obtain ⟨w, v, hw, rfl, hv, hcases⟩ := hv.cases
    rw [List.append_assoc] at hrest
    rcases hcases with rfl | rfl | ⟨w', b, x, hw', hb, rfl⟩
    · refine ends_ahead?_of hw (by decide) hrest fun d hd => ?_
      show Astray t d.rest
      rw [hd]
      exact .inl (.up hv hs)
    · refine ends_ahead?_of hw (by decide) hrest fun d hd => ?_
      show Astray t d.step.rest
      rw [Cursor.rest_step, hd]
      exact .inl hs
    · refine ends_ahead?_of hw (by decide) hrest fun d hd => ?_
      show Astray t d.rest
      rw [hd]
      exact .inl (.up hv hs)
  · refine ends_ahead?_intro fun w d hw hd _ => ?_
    rw [hd, stuck_append hw] at h
    split
    · exact .inr (.inl h)
    · next hb =>
      rw [Cursor.rest_of_head? hb] at h
      exact absurd rfl (h.head (by decide)).2.2
    · exact .inr (.inl h)
    · exact .inr (.inl h)
  · refine ends_ahead?_intro fun w d hw hd _ => ?_
    rw [hd, lexed_append hw.code] at h
    split
    · exact .inr (.inr h)
    · next hb =>
      rw [Cursor.rest_of_head? hb, lexed_cons rfl] at h
      exact .inr (.inr h)
    · exact .inr (.inr h)
    · exact .inr (.inr h)

/-! ## Strings -/

section Strings

variable {k t : List UInt8}

theorem ends_pairByte_ne {b e : UInt8} (h : c.rest = b :: t) (hne : b ≠ e)
    {good : Unit → Cursor → Prop} {bad : Cursor → Prop} :
    Ends (pairByte e) c good bad ↔ bad c.step := by
  unfold pairByte
  rw [ends_bind, ends_peek?, h]
  show Ends (skip >>= fun _ => if b = e then pure () else stop .unfinishedPair) c good bad ↔ _
  rw [ends_bind, ends_skip, if_neg hne]
  exact ends_stop

/-- The second half of a surrogate pair may be missing. Where it is, the reader is behind what
stands in its place, and if that is the closing quote, behind the string. -/
theorem ends_hexEscape_inner {q : List UInt8} {n : Nat} (hq : hexOf? q = some n) (hk : Inner k)
    (ht : Lexed false t) (h : c.rest = q ++ (k ++ Byte.quote :: t)) :
    Ends hexEscape c
      (fun _ d => ∃ k', Inner k' ∧ k'.length ≤ k.length ∧ d.rest = k' ++ Byte.quote :: t)
      (fun d => d.rest = t ∨ Lexed true d.rest) := by
  have hdigits := rest_advance_four h hq
  unfold hexEscape
  rw [ends_bind, ends_hexDigits_of h hq]
  generalize Cursor.advance 4 c = d at hdigits
  split
  · refine .inr ?_
    rw [hdigits]
    exact hk.lexed ht
  split
  · exact ⟨k, hk, Nat.le_refl _, hdigits⟩
  rw [ends_bind]
  cases hk with
  | nil =>
    rw [ends_pairByte_ne hdigits (by decide)]
    exact .inl (by rw [Cursor.rest_step, hdigits]; rfl)
  | plain hb hk =>
    rw [ends_pairByte_ne hdigits (isPlain_iff.mp hb).1.2]
    refine .inr ?_
    rw [Cursor.rest_step, hdigits]
    exact hk.lexed ht
  | @letter b e k hb hk =>
    have hletter : d.step.rest = b :: (k ++ Byte.quote :: t) := by
      rw [Cursor.rest_step, hdigits]
      rfl
    rw [ends_pairByte_of hdigits, ends_bind,
      ends_pairByte_ne hletter (by rintro rfl; cases hb)]
    refine .inr ?_
    rw [Cursor.rest_step, hletter]
    exact hk.lexed ht
  | @hex q' k m hq' hk =>
    have hmark : d.step.rest = Byte.smallU :: (q' ++ (k ++ Byte.quote :: t)) := by
      rw [Cursor.rest_step, hdigits]
      exact congrArg _ (List.append_assoc _ _ _)
    have hsecond : d.step.step.rest = q' ++ (k ++ Byte.quote :: t) := by
      rw [Cursor.rest_step, hmark, List.tail_cons]
    have hrest := rest_advance_four hsecond hq'
    rw [ends_pairByte_of hdigits, ends_bind, ends_pairByte_of hmark, ends_bind,
      ends_hexDigits_of hsecond hq']
    split
    · refine .inr ?_
      rw [hrest]
      exact hk.lexed ht
    · refine ⟨k, hk, ?_, hrest⟩
      simp only [List.length_cons, List.length_append]
      omega

theorem ends_stringRuns_inner {n : Nat} (hk : Inner k) (hn : k.length < n) (ht : Lexed false t)
    (h : c.rest = k ++ Byte.quote :: t) :
    Ends (stringRuns n) c (fun _ d => d.rest = t) (fun d => d.rest = t ∨ Lexed true d.rest) := by
  -- an escape may take the one behind it with it, so the induction is on the length
  induction hlength : k.length using Nat.strongRecOn generalizing c n k with
  | _ length ih =>
    subst hlength
    obtain ⟨n, rfl⟩ : ∃ m, n = m + 1 := ⟨n - 1, by omega⟩
    cases hk with
    | nil =>
      rw [ends_stringRuns_quote h, Cursor.rest_step, h]
      rfl
    | @plain b k hb hk =>
      rw [ends_stringRuns_plain h hb]
      rw [List.length_cons] at hn ih
      exact ih _ (by omega) hk (by omega) (by rw [Cursor.rest_step, h]; rfl) rfl
    | @letter b e k hb hk =>
      have hstep : c.step.rest = [b] ++ (k ++ Byte.quote :: t) := by
        rw [Cursor.rest_step, h]
        rfl
      rw [ends_stringRuns_escape h]
      rw [List.length_cons, List.length_cons] at hn ih
      exact ends_escape_of (.letter hb) hstep fun d hd => ih _ (by omega) hk (by omega) hd rfl
    | @hex q k m hq hk =>
      have hmark : c.step.rest = Byte.smallU :: (q ++ (k ++ Byte.quote :: t)) := by
        rw [Cursor.rest_step, h]
        exact congrArg _ (List.append_assoc _ _ _)
      rw [ends_stringRuns_escape h]
      unfold escape
      rw [ends_bind, ends_next?, hmark]
      show Ends hexEscape c.step.step _ _
      simp only [List.length_cons, List.length_append] at hn ih
      refine (ends_hexEscape_inner hq hk ht (by rw [Cursor.rest_step, hmark]; rfl)).imp ?_
      rintro e d ⟨k', hk', hle, hd⟩
      exact ih _ (by omega) hk' (by omega) hd rfl

/-- A string is read to its end, unless half a surrogate pair stands alone in it. -/
theorem ends_stringBody_inner (hk : Inner k) (ht : Lexed false t)
    (h : c.rest = k ++ Byte.quote :: t) :
    Ends stringBody c (fun _ d => d.rest = t) (fun d => d.rest = t ∨ Lexed true d.rest) := by
  unfold stringBody
  rw [ends_bind, ends_get, ends_bind]
  refine (ends_stringRuns_inner hk (by rw [h, List.length_append]; omega) ht h).imp ?_
  intro bs d hd
  split
  · exact hd
  · exact .inl hd

end Strings

/-! ## Numbers -/

/-- The end of a number, or one of its digits. -/
def AtNumber (t rest : List UInt8) : Prop :=
  rest = t ∨ ∃ b u, rest = b :: u ∧ Byte.isDigit b = true

theorem AtNumber.astray {t rest : List UInt8} (h : AtNumber t rest) : Astray t rest := by
  rcases h with rfl | ⟨b, u, rfl, hb⟩
  · exact .here
  · exact .inr (.inl (starts_of_digit hb).stuck)

section Numbers

variable {positive : Bool} {significand : Nat} {start : Int} {t ds : List UInt8}

theorem ends_floatOf_at (h : c.rest = t) :
    Ends (floatOf positive significand start) c (fun _ d => d.rest = t)
      fun d => AtNumber t d.rest := by
  unfold floatOf
  split
  · exact h
  · exact .inl h

/-- The digit at which an exponent passes its bound is one of its digits. -/
theorem le_of_exponentOf {e n : Nat} {ds : List Nat} (h : exponentOf e ds = .error n) :
    n ≤ ds.length := by
  induction ds generalizing e n with
  | nil => cases h
  | cons d ds ih =>
    rw [exponentOf] at h
    split at h
    · split at h
      · cases h
      · next m hm =>
        cases h
        exact Nat.succ_le_succ (ih hm)
    · cases h
      exact Nat.succ_le_succ (Nat.zero_le _)

theorem ends_exponentDigits_at {upward : Bool} (hne : ds ≠ []) (hds : Digits ds) (ht : NoDigit t)
    (h : c.rest = ds ++ t) :
    Ends (exponentDigits positive significand start upward) c (fun _ d => d.rest = t)
      fun d => AtNumber t d.rest := by
  obtain ⟨b, ds, rfl⟩ := List.exists_cons_of_ne_nil hne
  have hb : Byte.isDigit b = true := hds b List.mem_cons_self
  have hds' : Digits ds := fun x hx => hds x (List.mem_cons_of_mem _ hx)
  have hstep : c.step.rest = ds ++ t := by rw [Cursor.rest_step, h]; rfl
  have hend : (Cursor.advance ds.length c.step).rest = t := by
    rw [Cursor.rest_advance, hstep, List.drop_left]
  unfold exponentDigits
  rw [ends_bind, ends_next?, h]
  show Ends (if !Byte.isDigit b then _ else _) c.step _ _
  rw [hb, if_neg (by decide), ends_bind, ends_get, hstep, takeWhile_digits hds' ht]
  dsimp only
  rw [List.length_map]
  split
  · rw [ends_bind, ends_modify]
    exact ends_floatOf_at hend
  · next n hn =>
    split
    · have hle := le_of_exponentOf hn
      rw [List.length_map] at hle
      rw [ends_bind, ends_modify]
      show AtNumber t (Cursor.advance n c.step).rest
      rw [Cursor.rest_advance, hstep, List.drop_append_of_le_length hle]
      cases hdrop : ds.drop n with
      | nil => exact .inl rfl
      | cons x xs =>
        have hx : x ∈ ds.drop n := by
          rw [hdrop]
          exact List.mem_cons_self
        exact .inr ⟨x, _, rfl, hds' x (List.mem_of_mem_drop hx)⟩
    · rw [ends_bind, ends_modify]
      exact hend

theorem ends_exponentPart_at {mark : UInt8} {sign : List UInt8}
    (hsign : sign = [] ∨ sign = [Byte.plus] ∨ sign = [Byte.minus]) (hne : ds ≠ [])
    (hds : Digits ds) (ht : NoDigit t) (h : c.rest = mark :: (sign ++ ds) ++ t) :
    Ends (exponentPart positive significand start) c (fun _ d => d.rest = t)
      fun d => AtNumber t d.rest := by
  have hstep : c.step.rest = sign ++ (ds ++ t) := by
    rw [Cursor.rest_step, h, List.cons_append, List.append_assoc, List.tail_cons]
  unfold exponentPart
  rw [ends_bind, ends_skip, ends_bind, ends_peek?, hstep]
  rcases hsign with rfl | rfl | rfl
  · obtain ⟨b, ds, rfl⟩ := List.exists_cons_of_ne_nil hne
    have hb : Byte.isDigit b = true := hds b List.mem_cons_self
    split
    · next heq =>
      cases heq
      cases hb
    · next heq =>
      cases heq
      cases hb
    · exact ends_exponentDigits_at hne hds ht hstep
  · show Ends (skip >>= fun _ => exponentDigits positive significand start true) c.step _ _
    rw [ends_bind, ends_skip]
    exact ends_exponentDigits_at hne hds ht (by rw [Cursor.rest_step, hstep]; rfl)
  · show Ends (skip >>= fun _ => exponentDigits positive significand start false) c.step _ _
    rw [ends_bind, ends_skip]
    exact ends_exponentDigits_at hne hds ht (by rw [Cursor.rest_step, hstep]; rfl)

theorem ends_exponentOrEnd_at {e : List UInt8} (he : Exponent e) (ht : Ended t)
    (h : c.rest = e ++ t) :
    Ends (exponentOrEnd positive significand start) c (fun _ d => d.rest = t)
      fun d => AtNumber t d.rest := by
  unfold exponentOrEnd
  rw [ends_bind, ends_peek?, h]
  cases he with
  | none =>
    split
    · next heq => exact absurd heq (ht.head_ne (.inr (.inr (.inl rfl))))
    · next heq => exact absurd heq (ht.head_ne (.inr (.inr (.inr rfl))))
    · exact ends_floatOf_at h
  | some hmark hsign hne hds =>
    rcases hmark with rfl | rfl
    · exact ends_exponentPart_at hsign hne hds ht.noDigit h
    · exact ends_exponentPart_at hsign hne hds ht.noDigit h

theorem ends_fractionPart_at {e : List UInt8} (hne : ds ≠ []) (hds : Digits ds) (he : Exponent e)
    (ht : Ended t) (h : c.rest = Byte.point :: (ds ++ (e ++ t))) :
    Ends (fractionPart positive significand start) c (fun _ d => d.rest = t)
      fun d => AtNumber t d.rest := by
  have hstep : c.step.rest = ds ++ (e ++ t) := by rw [Cursor.rest_step, h]; rfl
  unfold fractionPart
  rw [ends_bind, ends_skip, ends_bind, ends_digitRun, hstep,
    takeWhile_digits hds (he.noDigit ht), if_neg]
  · exact ends_exponentOrEnd_at he ht (by rw [Cursor.rest_advance, hstep, List.drop_left])
  · simpa using hne

theorem ends_afterWhole_at {surplus : List Nat} {f e : List UInt8} (hf : Fraction f)
    (he : Exponent e) (ht : Ended t) (h : c.rest = f ++ (e ++ t)) :
    Ends (afterWhole positive significand surplus) c (fun _ d => d.rest = t)
      fun d => AtNumber t d.rest := by
  unfold afterWhole
  rw [ends_bind, ends_peek?, h]
  cases hf with
  | some hne hds => exact ends_fractionPart_at hne hds he ht h
  | none =>
    cases he with
    | none =>
      split
      · next heq => exact absurd heq (ht.head_ne (.inr (.inl rfl)))
      · next heq => exact absurd heq (ht.head_ne (.inr (.inr (.inl rfl))))
      · next heq => exact absurd heq (ht.head_ne (.inr (.inr (.inr rfl))))
      · split
        · exact h
        · exact ends_floatOf_at h
    | some hmark hsign hne hds =>
      rcases hmark with rfl | rfl
      · exact ends_exponentPart_at hsign hne hds ht.noDigit h
      · exact ends_exponentPart_at hsign hne hds ht.noDigit h

/-- A number is read to its end, unless its exponent or its value is too large. -/
theorem ends_numberBody_at {m : List UInt8} (hm : Magnitude m) (ht : Ended t)
    (h : c.rest = m ++ t) :
    Ends (numberBody positive) c (fun _ d => d.rest = t) fun d => AtNumber t d.rest := by
  obtain ⟨w, f, e, rfl, hw, hf, he⟩ := hm
  rw [List.append_assoc, List.append_assoc] at h
  unfold numberBody
  rw [ends_bind, ends_next?, h]
  cases hw with
  | zero =>
    have hstep : c.step.rest = f ++ (e ++ t) := by rw [Cursor.rest_step, h]; rfl
    show Ends (peek? >>= fun b =>
      if (b.map Byte.isDigit).getD false then stopAhead .invalidNumber
      else afterWhole positive 0 []) c.step _ _
    rw [ends_bind, ends_peek?, hstep]
    have hnone : ((f ++ (e ++ t)).head?.map Byte.isDigit).getD false = false := by
      cases hhead : (f ++ (e ++ t)).head? with
      | none => rfl
      | some b => exact hf.noDigit he ht b hhead
    rw [hnone, if_neg (by decide)]
    exact ends_afterWhole_at hf he ht hstep
  | @run b ds hb hne hds =>
    have hstep : c.step.rest = ds ++ (f ++ (e ++ t)) := by rw [Cursor.rest_step, h]; rfl
    simp only [List.cons_append, List.head?_cons, hb, Bool.not_true, Bool.false_eq_true,
      ↓reduceIte, hne]
    rw [ends_bind, ends_digitRun, hstep, takeWhile_digits hds (hf.noDigit he ht)]
    exact ends_afterWhole_at hf he ht (by rw [Cursor.rest_advance, hstep, List.drop_left])

end Numbers

end Reader

end Gatehouse.Json
