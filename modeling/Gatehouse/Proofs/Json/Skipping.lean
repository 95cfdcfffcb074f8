import Gatehouse.Proofs.Json.Numbers
import Gatehouse.Proofs.Json.Strings

/-!
# Passing over values

The skipper passes over a text exactly when it is a value in the grammar: it passes over every value
that no number goes on behind (`ends_skipValue_of`), and what it passes over is a value
(`ends_skipValue`). For the values inside lists and objects, `afterValue` is what the skipper still
does behind a value.
-/

namespace Gatehouse.Json.Reader

variable {c : Cursor}

/-! ## Punctuation -/

section Punctuation

variable {w t : List UInt8} {bad : Cursor → Prop}

theorem ends_word_of {bytes : List UInt8} (h : c.rest = bytes ++ t) {good : Unit → Cursor → Prop}
    (hgood : ∀ d, d.rest = t → good () d) : Ends (word bytes) c good bad := by
  induction bytes generalizing c with
  | nil => exact hgood c h
  | cons b bytes ih =>
    rw [word, ends_bind, ends_next?, h, List.cons_append, List.head?_cons]
    show Ends (if b = b then word bytes else stop .expectedWord) c.step good bad
    rw [if_pos rfl]
    exact ih (by rw [Cursor.rest_step, h]; rfl)

theorem ends_colon_of (hw : Blanks w) (h : c.rest = w ++ Byte.colon :: t)
    {good : Unit → Cursor → Prop} (hgood : ∀ d, d.rest = t → good () d) :
    Ends colon c good bad := by
  unfold colon
  rw [ends_bind]
  refine ends_ahead?_of hw (by decide) h fun d hd => ?_
  exact hgood _ (by rw [Cursor.rest_step, hd]; rfl)

theorem ends_skipKey_of {k w' : List UInt8} (hw : Blanks w) (hk : Inner k) (hw' : Blanks w')
    (h : c.rest = w ++ Byte.quote :: (k ++ Byte.quote :: (w' ++ Byte.colon :: t)))
    {good : Unit → Cursor → Prop} (hgood : ∀ d, d.rest = t → good () d) :
    Ends skipKey c good bad := by
  unfold skipKey
  rw [ends_bind]
  refine ends_ahead?_of hw (by decide) h fun d hd => ?_
  show Ends (skip >>= fun _ => skipString >>= fun _ => colon) d good bad
  rw [ends_bind, ends_skip, ends_bind]
  refine ends_skipString_of hk (by rw [Cursor.rest_step, hd]; rfl) fun e he => ?_
  exact ends_colon_of hw' he hgood

variable {outer : List Bracket} {bracket : Bracket} {good : List Bracket → Cursor → Prop}

theorem close_not_blank (bracket : Bracket) : Byte.isBlank bracket.close = false := by
  cases bracket <;> decide

/-- A closing bracket closes, whether or not a comma could stand in its place. -/
theorem ends_skipClosing_close {afterValue : Bool} (hw : Blanks w)
    (h : c.rest = w ++ bracket.close :: t)
    (hgood : ∀ d, d.rest = t → Ends (skipClosing true outer) d good bad) :
    Ends (skipClosing afterValue (bracket :: outer)) c good bad := by
  rw [skipClosing, ends_bind]
  refine ends_ahead?_of hw (close_not_blank bracket) h fun d hd => ?_
  have hcomma : bracket.close ≠ Byte.comma := by cases bracket <;> decide
  show Ends (if bracket.close = Byte.comma ∧ afterValue then _ else _) d good bad
  rw [if_neg (fun h => hcomma h.1), if_pos rfl, ends_bind, ends_skip]
  exact hgood _ (by rw [Cursor.rest_step, hd]; rfl)

theorem ends_skipClosing_comma (hw : Blanks w) (h : c.rest = w ++ Byte.comma :: t)
    (hgood : ∀ d, d.rest = t → good (bracket :: outer) d) :
    Ends (skipClosing true (bracket :: outer)) c good bad := by
  rw [skipClosing, ends_bind]
  refine ends_ahead?_of hw (by decide) h fun d hd => ?_
  exact hgood _ (by rw [Cursor.rest_step, hd]; rfl)

/-- Before the first value nothing closes unless the bracket does. -/
theorem ends_skipClosing_first {b : UInt8} (hw : Blanks w) (hb : Byte.isBlank b = false)
    (hclose : b ≠ bracket.close) (h : c.rest = w ++ b :: t)
    (hgood : ∀ d, d.rest = b :: t → good (bracket :: outer) d) :
    Ends (skipClosing false (bracket :: outer)) c good bad := by
  rw [skipClosing, ends_bind]
  refine ends_ahead?_of hw hb h fun d hd => ?_
  show Ends (if b = Byte.comma ∧ false = true then _ else _) d good bad
  rw [if_neg (fun h => absurd h.2 Bool.false_ne_true), if_neg hclose,
    if_neg Bool.false_ne_true]
  exact hgood d hd

end Punctuation

/-! ## Atoms and opening brackets -/

section Opening

variable {w t : List UInt8} {good : Option Bracket → Cursor → Prop} {bad : Cursor → Prop}

theorem ends_skipOpening_word {b : UInt8} {bytes : List UInt8} (hw : Blanks w)
    (h : c.rest = w ++ b :: (bytes ++ t))
    (hword : (b = Byte.smallN ∧ bytes = [0x75, 0x6C, 0x6C]) ∨
      (b = Byte.smallT ∧ bytes = [0x72, 0x75, 0x65]) ∨
      (b = Byte.smallF ∧ bytes = [0x61, 0x6C, 0x73, 0x65]))
    (hgood : ∀ d, d.rest = t → good none d) : Ends skipOpening c good bad := by
  have hrest : ∀ d : Cursor, d.rest = b :: (bytes ++ t) →
      Ends (skip >>= fun _ => word bytes >>= fun _ => pure none) d good bad := by
    intro d hd
    rw [ends_bind, ends_skip, ends_bind]
    exact ends_word_of (by rw [Cursor.rest_step, hd]; rfl) hgood
  unfold skipOpening
  rw [ends_bind]
  rcases hword with ⟨rfl, rfl⟩ | ⟨rfl, rfl⟩ | ⟨rfl, rfl⟩
  · exact ends_ahead?_of hw (by decide) h hrest
  · exact ends_ahead?_of hw (by decide) h hrest
  · exact ends_ahead?_of hw (by decide) h hrest

theorem ends_skipOpening_string {k : List UInt8} (hw : Blanks w) (hk : Inner k)
    (h : c.rest = w ++ Byte.quote :: (k ++ Byte.quote :: t))
    (hgood : ∀ d, d.rest = t → good none d) : Ends skipOpening c good bad := by
  unfold skipOpening
  rw [ends_bind]
  refine ends_ahead?_of hw (by decide) h fun d hd => ?_
  show Ends (skip >>= fun _ => skipString >>= fun _ => pure none) d good bad
  rw [ends_bind, ends_skip, ends_bind]
  exact ends_skipString_of hk (by rw [Cursor.rest_step, hd]; rfl) hgood

theorem ends_skipOpening_negative {m : List UInt8} (hw : Blanks w) (hm : Magnitude m)
    (ht : Ended t) (h : c.rest = w ++ Byte.minus :: (m ++ t))
    (hgood : ∀ d, d.rest = t → good none d) : Ends skipOpening c good bad := by
  unfold skipOpening
  rw [ends_bind]
  refine ends_ahead?_of hw (by decide) h fun d hd => ?_
  show Ends (skip >>= fun _ => skipNumber >>= fun _ => pure none) d good bad
  rw [ends_bind, ends_skip, ends_bind]
  exact ends_skipNumber_of hm ht (by rw [Cursor.rest_step, hd]; rfl) hgood

theorem ends_skipOpening_number {m : List UInt8} (hw : Blanks w) (hm : Magnitude m)
    (ht : Ended t) (h : c.rest = w ++ (m ++ t))
    (hgood : ∀ d, d.rest = t → good none d) : Ends skipOpening c good bad := by
  obtain ⟨b, u, rfl, hdigit⟩ := hm.exists_head
  unfold skipOpening
  rw [ends_bind]
  refine ends_ahead?_of hw (not_blank_of_digit hdigit) h fun d hd => ?_
  split
  case h_9 heq =>
    cases heq
    rw [if_pos hdigit, ends_bind]
    exact ends_skipNumber_of hm ht hd hgood
  all_goals
    next heq => cases heq <;> cases hdigit

theorem ends_skipOpening_list (hw : Blanks w) (h : c.rest = w ++ Byte.openBracket :: t)
    (hgood : ∀ d, d.rest = t → good (some .list) d) : Ends skipOpening c good bad := by
  unfold skipOpening
  rw [ends_bind]
  refine ends_ahead?_of hw (by decide) h fun d hd => ?_
  exact hgood _ (by rw [Cursor.rest_step, hd]; rfl)

theorem ends_skipOpening_object (hw : Blanks w) (h : c.rest = w ++ Byte.openBrace :: t)
    (hgood : ∀ d, d.rest = t → good (some .object) d) : Ends skipOpening c good bad := by
  unfold skipOpening
  rw [ends_bind]
  refine ends_ahead?_of hw (by decide) h fun d hd => ?_
  exact hgood _ (by rw [Cursor.rest_step, hd]; rfl)

end Opening

/-! ## Whole values -/

/-- What the skipper still does behind a value. -/
def afterValue (n : Nat) (stack : List Bracket) : Reader Unit := do
  let stack ← skipClosing true stack
  skipOnward (skipWithin n) stack

/-- The skipper passes over a part of a text, whatever it has to pass over behind it. -/
def Passed (good : Unit → Cursor → Prop) (bad : Cursor → Prop) : Form → List UInt8 → Prop
  | .value, v => ∀ {n : Nat} {outer : List Bracket} {c : Cursor} {w t : List UInt8}, Blanks w →
      c.rest = w ++ (v ++ t) → Ended t → c.rest.length < n →
      (∀ m d, d.rest = t → t.length < m → Ends (afterValue m outer) d good bad) →
      Ends (skipWithin n outer) c good bad
  | .items, u => ∀ {n : Nat} {outer : List Bracket} {c : Cursor} {t : List UInt8},
      c.rest = u ++ t → c.rest.length < n →
      (∀ m d, d.rest = t → t.length < m → Ends (afterValue m outer) d good bad) →
      Ends (afterValue n (.list :: outer)) c good bad
  | .pair, p => ∀ {n : Nat} {outer : List Bracket} {c : Cursor} {w t : List UInt8}, Blanks w →
      c.rest = w ++ (p ++ t) → Ended t → c.rest.length < n →
      (∀ m d, d.rest = t → t.length < m → Ends (afterValue m (.object :: outer)) d good bad) →
      Ends (skipOnward (skipWithin n) (.object :: outer)) c good bad
  | .members, u => ∀ {n : Nat} {outer : List Bracket} {c : Cursor} {t : List UInt8},
      c.rest = u ++ t → c.rest.length < n →
      (∀ m d, d.rest = t → t.length < m → Ends (afterValue m outer) d good bad) →
      Ends (afterValue n (.object :: outer)) c good bad

section Forward

variable {good : Unit → Cursor → Prop} {bad : Cursor → Prop}

/-- A value without values inside is passed over when it opens nothing. -/
theorem passed_of_opening {v : List UInt8} (hne : v ≠ [])
    (hopening : ∀ {c : Cursor} {w t : List UInt8} {good : Option Bracket → Cursor → Prop},
      Blanks w → c.rest = w ++ (v ++ t) → Ended t → (∀ d, d.rest = t → good none d) →
      Ends skipOpening c good bad) : Passed good bad .value v := by
  intro n outer c w t hw h ht hn hafter
  have hlength := List.length_pos_iff.mpr hne
  rw [h, List.length_append, List.length_append] at hn
  obtain ⟨n, rfl⟩ : ∃ k, n = k + 1 := ⟨n - 1, by omega⟩
  rw [skipWithin, ends_bind]
  exact hopening hw h ht fun d hd => hafter n d hd (by omega)

theorem ends_afterValue {n : Nat} {stack : List Bracket} :
    Ends (afterValue n stack) c good bad ↔
      Ends (skipClosing true stack) c
        (fun stack d => Ends (skipOnward (skipWithin n) stack) d good bad) bad :=
  ends_bind

section Bracketed

variable {n : Nat} {outer : List Bracket} {w t : List UInt8}

theorem ends_skipWithin_list (hw : Blanks w) (h : c.rest = w ++ Byte.openBracket :: t)
    (hn : c.rest.length < n)
    (hgood : ∀ m d, d.rest = t → t.length < m →
      Ends (skipClosing false (.list :: outer)) d
        (fun stack d => Ends (skipOnward (skipWithin m) stack) d good bad) bad) :
    Ends (skipWithin n outer) c good bad := by
  rw [h, List.length_append, List.length_cons] at hn
  obtain ⟨n, rfl⟩ : ∃ k, n = k + 1 := ⟨n - 1, by omega⟩
  rw [skipWithin, ends_bind]
  refine ends_skipOpening_list hw h fun d hd => ?_
  rw [ends_bind]
  exact hgood n d hd (by omega)

theorem ends_skipWithin_object (hw : Blanks w) (h : c.rest = w ++ Byte.openBrace :: t)
    (hn : c.rest.length < n)
    (hgood : ∀ m d, d.rest = t → t.length < m →
      Ends (skipClosing false (.object :: outer)) d
        (fun stack d => Ends (skipOnward (skipWithin m) stack) d good bad) bad) :
    Ends (skipWithin n outer) c good bad := by
  rw [h, List.length_append, List.length_cons] at hn
  obtain ⟨n, rfl⟩ : ∃ k, n = k + 1 := ⟨n - 1, by omega⟩
  rw [skipWithin, ends_bind]
  refine ends_skipOpening_object hw h fun d hd => ?_
  rw [ends_bind]
  exact hgood n d hd (by omega)

end Bracketed

/-- The skipper passes over every text of a form. -/
theorem passed {f : Form} {t : List UInt8} (h : Spells f t) : Passed good bad f t := by
  induction h with
  | null =>
    exact passed_of_opening (List.cons_ne_nil _ _) fun hw h _ hgood =>
      ends_skipOpening_word hw h (.inl ⟨rfl, rfl⟩) hgood
  | true =>
    exact passed_of_opening (List.cons_ne_nil _ _) fun hw h _ hgood =>
      ends_skipOpening_word hw h (.inr (.inl ⟨rfl, rfl⟩)) hgood
  | false =>
    exact passed_of_opening (List.cons_ne_nil _ _) fun hw h _ hgood =>
      ends_skipOpening_word hw h (.inr (.inr ⟨rfl, rfl⟩)) hgood
  | number hm =>
    obtain ⟨b, u, rfl, -⟩ := hm.exists_head
    exact passed_of_opening (List.cons_ne_nil _ _) fun hw h ht hgood =>
      ends_skipOpening_number hw hm ht h hgood
  | negative hm =>
    exact passed_of_opening (List.cons_ne_nil _ _) fun hw h ht hgood =>
      ends_skipOpening_negative hw hm ht h hgood
  | string hk =>
    refine passed_of_opening (List.cons_ne_nil _ _) fun hw h ht hgood => ?_
    rw [List.cons_append, List.append_assoc] at h
    exact ends_skipOpening_string hw hk h hgood
  | noItems hu =>
    intro n outer c w t hw h ht hn hafter
    rw [List.cons_append, List.append_assoc] at h
    refine ends_skipWithin_list hw h hn fun m d hd hm => ?_
    refine ends_skipClosing_close hu hd fun e he => ?_
    rw [List.length_append, List.length_append] at hm
    exact ends_afterValue.mp (hafter m e he (by omega))
  | @list u v s hu hv hs ihv ihs =>
    intro n outer c w t hw h ht hn hafter
    obtain ⟨b, v', rfl, hb⟩ := hv.exists_head
    rw [List.cons_append, List.append_assoc, List.append_assoc, List.cons_append] at h
    refine ends_skipWithin_list hw h hn fun m d hd hm => ?_
    -- the first byte of the value is looked at before the value is passed over
    refine ends_skipClosing_first hu hb.1 hb.2.2.2.1 hd fun e he => ?_
    simp only [List.length_append, List.length_cons] at hm
    refine ihv Blanks.nil he (hs.ended_items t) ?_ fun m' e' he' hm' => ?_
    · simp only [he, List.length_append, List.length_cons]
      omega
    · exact ihs he' (by rw [he']; exact hm') hafter
  | noMembers hu =>
    intro n outer c w t hw h ht hn hafter
    rw [List.cons_append, List.append_assoc] at h
    refine ends_skipWithin_object hw h hn fun m d hd hm => ?_
    refine ends_skipClosing_close hu hd fun e he => ?_
    rw [List.length_append, List.length_append] at hm
    exact ends_afterValue.mp (hafter m e he (by omega))
  | @object u p s hu hp hs ihp ihs =>
    intro n outer c w t hw h ht hn hafter
    obtain ⟨p', rfl⟩ := hp.exists_quote
    rw [List.cons_append, List.append_assoc, List.append_assoc, List.cons_append] at h
    refine ends_skipWithin_object hw h hn fun m d hd hm => ?_
    refine ends_skipClosing_first hu (by decide) (by decide) hd fun e he => ?_
    simp only [List.length_append, List.length_cons] at hm
    refine ihp Blanks.nil he (hs.ended_members t) ?_ fun m' e' he' hm' => ?_
    · simp only [he, List.length_append, List.length_cons]
      omega
    · exact ihs he' (by rw [he']; exact hm') hafter
  | closeList hw =>
    intro n outer c t h hn hafter
    rw [List.append_assoc] at h
    rw [ends_afterValue]
    refine ends_skipClosing_close hw h fun d hd => ?_
    rw [h, List.length_append, List.length_append] at hn
    exact ends_afterValue.mp (hafter n d hd (by omega))
  | @item u u' v s hu hu' hv hs ihv ihs =>
    intro n outer c t h hn hafter
    rw [List.append_assoc, List.cons_append, List.append_assoc, List.append_assoc] at h
    rw [ends_afterValue]
    refine ends_skipClosing_comma hu h fun d hd => ?_
    refine ihv hu' hd (hs.ended_items t) ?_ fun m e he hm => ?_
    · rw [h, List.length_append, List.length_cons, ← hd] at hn
      omega
    · exact ihs he (by rw [he]; exact hm) hafter
  | @pair k u u' v hk hu hu' hv ihv =>
    intro n outer c w t hw h ht hn hafter
    simp only [List.cons_append, List.append_assoc] at h
    rw [skipOnward, ends_bind]
    refine ends_skipKey_of hw hk hu h fun d hd => ?_
    refine ihv hu' hd ht ?_ hafter
    simp only [h, List.length_append, List.length_cons] at hn
    rw [hd]
    simp only [List.length_append]
    omega
  | closeObject hw =>
    intro n outer c t h hn hafter
    rw [List.append_assoc] at h
    rw [ends_afterValue]
    refine ends_skipClosing_close hw h fun d hd => ?_
    rw [h, List.length_append, List.length_append] at hn
    exact ends_afterValue.mp (hafter n d hd (by omega))
  | @member u u' p s hu hu' hp hs ihp ihs =>
    intro n outer c t h hn hafter
    rw [List.append_assoc, List.cons_append, List.append_assoc, List.append_assoc] at h
    rw [ends_afterValue]
    refine ends_skipClosing_comma hu h fun d hd => ?_
    refine ihp hu' hd (hs.ended_members t) ?_ fun m e he hm => ?_
    · rw [h, List.length_append, List.length_cons, ← hd] at hn
      omega
    · exact ihs he (by rw [he]; exact hm) hafter

/-- The skipper passes over every value behind blanks. -/
theorem ends_skipValue_of {v w t : List UInt8} (hv : Spells .value v) (hw : Blanks w)
    (h : c.rest = w ++ (v ++ t)) (ht : Ended t) (hgood : ∀ d, d.rest = t → good () d) :
    Ends skipValue c good bad := by
  unfold skipValue
  rw [ends_bind, ends_get]
  refine passed hv hw h ht (Nat.lt_succ_self _) fun m d hd _ => ?_
  rw [ends_afterValue, skipClosing, ends_pure]
  exact hgood d hd

end Forward

/-! ## What is passed over -/

theorem ends_word (bytes : List UInt8) :
    Ends (word bytes) c (fun _ d => c.rest = bytes ++ d.rest) fun _ => True := by
  induction bytes generalizing c with
  | nil => rfl
  | cons b bytes ih =>
    rw [word, ends_bind, ends_next?]
    split
    · trivial
    · next x hx =>
      split
      · next heq =>
        apply ih.imp
        intro _ d hd
        rw [Cursor.rest_of_head? hx, hd, heq, List.cons_append]
      · trivial

theorem ends_colon :
    Ends colon c (fun _ d => ∃ w, Blanks w ∧ c.rest = w ++ Byte.colon :: d.rest)
      fun _ => True := by
  unfold colon
  rw [ends_bind]
  refine ends_ahead?_intro fun w d hw hd _ => ?_
  split
  · trivial
  · next h => exact ⟨w, hw, by rw [hd, Cursor.rest_of_head? h]; rfl⟩
  · trivial

theorem ends_skipKey :
    Ends skipKey c
      (fun _ d => ∃ w k w', Blanks w ∧ Inner k ∧ Blanks w' ∧
        c.rest = w ++ Byte.quote :: (k ++ Byte.quote :: (w' ++ Byte.colon :: d.rest)))
      fun _ => True := by
  unfold skipKey
  rw [ends_bind]
  refine ends_ahead?_intro fun w d hw hd _ => ?_
  split
  · trivial
  · next h =>
    rw [ends_bind, ends_skip]
    apply Ends.bind ends_skipString
    rintro _ e ⟨k, hk, he⟩
    apply ends_colon.imp
    rintro _ e' ⟨w', hw', he'⟩
    exact ⟨w, k, w', hw, hk, hw', by rw [hd, Cursor.rest_of_head? h, he, he']; rfl⟩
  · trivial

/-- The byte that opens a bracket. -/
def opening : Bracket → UInt8
  | .list => Byte.openBracket
  | .object => Byte.openBrace

theorem ends_skipOpening :
    Ends skipOpening c
      (fun o d => ∃ w, Blanks w ∧
        ((o = none ∧ ∃ v, Spells .value v ∧ c.rest = w ++ (v ++ d.rest)) ∨
          ∃ bracket, o = some bracket ∧ c.rest = w ++ opening bracket :: d.rest))
      fun _ => True := by
  have hword : ∀ {b : UInt8} {bytes w : List UInt8} {d : Cursor}, Spells .value (b :: bytes) →
      Blanks w → c.rest = w ++ d.rest → d.rest.head? = some b →
      Ends (skip >>= fun _ => word bytes >>= fun _ => pure (none : Option Bracket)) d
        (fun o d => ∃ w, Blanks w ∧
          ((o = none ∧ ∃ v, Spells .value v ∧ c.rest = w ++ (v ++ d.rest)) ∨
            ∃ bracket, o = some bracket ∧ c.rest = w ++ opening bracket :: d.rest))
        fun _ => True := by
    intro b bytes w d hv hw hd hb
    rw [ends_bind, ends_skip]
    apply Ends.bind (ends_word bytes)
    intro _ e he
    exact ⟨w, hw, .inl ⟨rfl, _, hv, by rw [hd, Cursor.rest_of_head? hb, he]; rfl⟩⟩
  unfold skipOpening
  rw [ends_bind]
  refine ends_ahead?_intro fun w d hw hd _ => ?_
  split
  · trivial
  · next h => exact hword .null hw hd h
  · next h => exact hword .true hw hd h
  · next h => exact hword .false hw hd h
  · next h =>
    rw [ends_bind, ends_skip]
    apply Ends.bind ends_skipNumber
    rintro _ e ⟨m, hm, he⟩
    exact ⟨w, hw, .inl ⟨rfl, _, .negative hm, by rw [hd, Cursor.rest_of_head? h, he]; rfl⟩⟩
  · next h =>
    rw [ends_bind, ends_skip]
    apply Ends.bind ends_skipString
    rintro _ e ⟨k, hk, he⟩
    refine ⟨w, hw, .inl ⟨rfl, _, .string hk, ?_⟩⟩
    rw [hd, Cursor.rest_of_head? h, he, List.cons_append, List.append_assoc]
    rfl
  · next h => exact ⟨w, hw, .inr ⟨.list, rfl, by rw [hd, Cursor.rest_of_head? h]; rfl⟩⟩
  · next h => exact ⟨w, hw, .inr ⟨.object, rfl, by rw [hd, Cursor.rest_of_head? h]; rfl⟩⟩
  · next b _ _ _ _ _ _ _ h =>
    split
    · apply Ends.bind ends_skipNumber
      rintro _ e ⟨m, hm, he⟩
      exact ⟨w, hw, .inl ⟨rfl, _, .number hm, by rw [hd, he]⟩⟩
    · trivial

/-! ## What completes open brackets -/

/-- A text closes open brackets from behind a value in the innermost of them. -/
inductive Closes : List Bracket → List UInt8 → Prop
  | nil : Closes [] []
  | list {outer : List Bracket} {u t : List UInt8} : Spells .items u → Closes outer t →
      Closes (.list :: outer) (u ++ t)
  | object {outer : List Bracket} {u t : List UInt8} : Spells .members u → Closes outer t →
      Closes (.object :: outer) (u ++ t)

/-- From one text to another the next value is passed and open brackets are closed. -/
def Resumes : List Bracket → List UInt8 → List UInt8 → Prop
  | [], x, r => x = r
  | .list :: outer, x, r => ∃ w v t, Blanks w ∧ Spells .value v ∧ Closes (.list :: outer) t ∧
      x = w ++ (v ++ (t ++ r))
  | .object :: outer, x, r => ∃ w p t, Blanks w ∧ Spells .pair p ∧ Closes (.object :: outer) t ∧
      x = w ++ (p ++ (t ++ r))

/-- A closing bracket behind a value closes. -/
theorem Closes.close {bracket : Bracket} {outer : List Bracket} {w t : List UInt8} (hw : Blanks w)
    (ht : Closes outer t) : Closes (bracket :: outer) (w ++ [bracket.close] ++ t) := by
  cases bracket with
  | list => exact .list (.closeList hw) ht
  | object => exact .object (.closeObject hw) ht

/-- A comma behind a value goes on with the next one. -/
theorem Closes.comma {bracket : Bracket} {outer : List Bracket} {w x r : List UInt8}
    (hw : Blanks w) (hx : Resumes (bracket :: outer) x r) :
    ∃ t, Closes (bracket :: outer) t ∧ w ++ Byte.comma :: x = t ++ r := by
  cases bracket with
  | list =>
    obtain ⟨w', v, _, hw', hv, ht, rfl⟩ := hx
    cases ht with
    | @list _ u t hu ht =>
      refine ⟨_, .list (.item hw hw' hv hu) ht, ?_⟩
      simp only [List.append_assoc, List.cons_append]
  | object =>
    obtain ⟨w', p, _, hw', hp, ht, rfl⟩ := hx
    cases ht with
    | @object _ u t hu ht =>
      refine ⟨_, .object (.member hw hw' hp hu) ht, ?_⟩
      simp only [List.append_assoc, List.cons_append]

/-- Behind a value the skipper closes brackets and resumes inside the others. -/
theorem ends_skipClosing (stack : List Bracket) :
    Ends (skipClosing true stack) c
      (fun stack' d => d.rest.length ≤ c.rest.length ∧
        ∀ r, Resumes stack' d.rest r → ∃ t, Closes stack t ∧ c.rest = t ++ r)
      fun _ => True := by
  induction stack generalizing c with
  | nil =>
    refine ⟨Nat.le_refl _, ?_⟩
    rintro r rfl
    exact ⟨[], .nil, rfl⟩
  | cons bracket outer ih =>
    rw [skipClosing, ends_bind]
    refine ends_ahead?_intro fun w d hw hd _ => ?_
    have hlength : d.rest.length ≤ c.rest.length := by
      rw [hd, List.length_append]
      omega
    split
    · trivial
    · next b hb =>
      have hrest := Cursor.rest_of_head? hb
      have hstep : d.step.rest.length ≤ c.rest.length := by
        rw [hrest, List.length_cons] at hlength
        omega
      split
      · next hcomma =>
        rw [ends_bind, ends_skip]
        refine ⟨hstep, fun r hr => ?_⟩
        obtain ⟨t, ht, heq⟩ := Closes.comma hw hr
        exact ⟨t, ht, by rw [hd, hrest, hcomma.1, heq]⟩
      · split
        · next hclose =>
          rw [ends_bind, ends_skip]
          apply ih.imp
          rintro stack' e ⟨hle, hresumes⟩
          refine ⟨Nat.le_trans hle hstep, fun r hr => ?_⟩
          obtain ⟨t, ht, heq⟩ := hresumes r hr
          refine ⟨_, Closes.close hw ht, ?_⟩
          rw [hd, hrest, hclose, heq]
          simp only [List.append_assoc, List.cons_append, List.nil_append]
        · rw [if_pos rfl]
          trivial

/-- Behind an opening bracket it closes the bracket or resumes inside it. -/
theorem ends_skipClosing_opened (bracket : Bracket) (outer : List Bracket) :
    Ends (skipClosing false (bracket :: outer)) c
      (fun stack' d => d.rest.length ≤ c.rest.length ∧
        ∀ r, Resumes stack' d.rest r → ∃ v t, Spells .value (opening bracket :: v) ∧
          Closes outer t ∧ c.rest = v ++ (t ++ r))
      fun _ => True := by
  rw [skipClosing, ends_bind]
  refine ends_ahead?_intro fun w d hw hd _ => ?_
  have hlength : d.rest.length ≤ c.rest.length := by
    rw [hd, List.length_append]
    omega
  split
  · trivial
  · next b hb =>
    have hrest := Cursor.rest_of_head? hb
    rw [if_neg (fun h => absurd h.2 Bool.false_ne_true)]
    split
    · next hclose =>
      rw [ends_bind, ends_skip]
      apply (ends_skipClosing outer).imp
      rintro stack' e ⟨hle, hresumes⟩
      refine ⟨?_, fun r hr => ?_⟩
      · rw [hrest, List.length_cons] at hlength
        omega
      · obtain ⟨t, ht, heq⟩ := hresumes r hr
        refine ⟨w ++ [bracket.close], t, ?_, ht, ?_⟩
        · cases bracket with
          | list => exact .noItems hw
          | object => exact .noMembers hw
        · rw [hd, hrest, hclose, heq]
          simp only [List.append_assoc, List.singleton_append]
    · rw [if_neg Bool.false_ne_true]
      refine ⟨hlength, fun r hr => ?_⟩
      cases bracket with
      | list =>
        obtain ⟨w', v, _, hw', hv, ht, heq⟩ := hr
        cases ht with
        | @list _ u t hu ht =>
          refine ⟨w ++ w' ++ (v ++ u), t, ?_, ht, ?_⟩
          · exact .list (hw.append hw') hv hu
          · rw [hd, heq]
            simp only [List.append_assoc]
      | object =>
        obtain ⟨w', p, _, hw', hp, ht, heq⟩ := hr
        cases ht with
        | @object _ u t hu ht =>
          refine ⟨w ++ w' ++ (p ++ u), t, ?_, ht, ?_⟩
          · exact .object (hw.append hw') hp hu
          · rw [hd, heq]
            simp only [List.append_assoc]

/-- What the skipper passes over is a value and what closes the open brackets behind it. -/
theorem ends_skipWithin (n : Nat) (stack : List Bracket) (hn : c.rest.length < n) :
    Ends (skipWithin n stack) c
      (fun _ d => ∃ w v t, Blanks w ∧ Spells .value v ∧ Closes stack t ∧
        c.rest = w ++ (v ++ (t ++ d.rest)))
      fun _ => True := by
  induction n generalizing c stack with
  | zero => exact absurd hn (Nat.not_lt_zero _)
  | succ n ih =>
    have honward : ∀ (stack : List Bracket) (d : Cursor), d.rest.length < n →
        Ends (skipOnward (skipWithin n) stack) d (fun _ e => Resumes stack d.rest e.rest)
          fun _ => True := by
      intro stack d hd
      cases stack with
      | nil => rfl
      | cons bracket outer =>
        cases bracket with
        | list => exact ih _ hd
        | object =>
          rw [skipOnward]
          apply Ends.bind ends_skipKey
          rintro _ e ⟨w, k, w', hw, hk, hw', hrest⟩
          have hlt : e.rest.length < n := by
            simp only [hrest, List.length_append, List.length_cons] at hd
            omega
          apply (ih _ hlt).imp
          rintro _ e' ⟨w'', v, t, hw'', hv, ht, heq⟩
          refine ⟨w, _, t, hw, .pair hk hw' hw'' hv, ht, ?_⟩
          rw [hrest, heq]
          simp only [List.append_assoc, List.cons_append]
    rw [skipWithin]
    apply Ends.bind ends_skipOpening
    rintro o d ⟨w, hw, ⟨rfl, v, hv, hrest⟩ | ⟨bracket, rfl, hrest⟩⟩
    · obtain ⟨b, v', rfl, -⟩ := hv.exists_head
      apply Ends.bind (ends_skipClosing stack)
      rintro stack' e ⟨hle, hresumes⟩
      refine (honward stack' e ?_).imp ?_
      · simp only [hrest, List.length_append, List.length_cons] at hn
        omega
      · intro _ e' he'
        obtain ⟨t, ht, heq⟩ := hresumes _ he'
        exact ⟨w, _, t, hw, hv, ht, by rw [hrest, heq]⟩
    · apply Ends.bind (ends_skipClosing_opened bracket stack)
      rintro stack' e ⟨hle, hresumes⟩
      refine (honward stack' e ?_).imp ?_
      · simp only [hrest, List.length_append, List.length_cons] at hn
        omega
      · intro _ e' he'
        obtain ⟨v, t, hv, ht, heq⟩ := hresumes _ he'
        exact ⟨w, _, t, hw, hv, ht, by rw [hrest, heq, List.cons_append]⟩

/-- What the skipper passes over is a value. -/
theorem ends_skipValue :
    Ends skipValue c
      (fun _ d => ∃ w v, Blanks w ∧ Spells .value v ∧ c.rest = w ++ (v ++ d.rest))
      fun _ => True := by
  unfold skipValue
  rw [ends_bind, ends_get]
  apply (ends_skipWithin _ [] (Nat.lt_succ_self _)).imp
  rintro _ d ⟨w, v, t, hw, hv, ht, hrest⟩
  cases ht
  exact ⟨w, v, hw, hv, hrest⟩

end Gatehouse.Json.Reader
