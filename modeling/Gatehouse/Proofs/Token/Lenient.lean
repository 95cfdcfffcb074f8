import Gatehouse.Proofs.Json.Values
import Gatehouse.Proofs.Token.Issued

/-!
# Lenient fields

The lenient readers of a screening always give a result, and in front of a value they leave the
cursor behind it or astray. An audience is seen where there is one (`ends_audienceNext_of`).
-/

namespace Gatehouse.Token.Screening

open Json Json.Reader

variable {c : Cursor} {room : Nat} {w v t : List UInt8}

/-! ## Audiences -/

/-- What stands behind a string in a list of strings, the closing bracket included. -/
inductive SpellsTexts : List UInt8 → Prop
  | close {w : List UInt8} : Blanks w → SpellsTexts (w ++ [Byte.closeBracket])
  | more {s : String} {w w' q t : List UInt8} : Blanks w → Blanks w' → SpellsString s q →
      SpellsTexts t → SpellsTexts (w ++ Byte.comma :: (w' ++ (q ++ t)))

/-- A text is a string or a list of strings. -/
inductive SpellsAudience : List UInt8 → Prop
  | text {s : String} {q : List UInt8} : SpellsString s q → SpellsAudience q
  | none {w : List UInt8} : Blanks w →
      SpellsAudience (Byte.openBracket :: (w ++ [Byte.closeBracket]))
  | texts {s : String} {w q t : List UInt8} : Blanks w → SpellsString s q → SpellsTexts t →
      SpellsAudience (Byte.openBracket :: (w ++ (q ++ t)))

theorem ends_plainValue_string {s : String} {q : List UInt8} (hw : Blanks w)
    (hq : SpellsString s q) (h : c.rest = w ++ (q ++ t)) {good : Value → Cursor → Prop}
    {bad : Cursor → Prop} (hgood : ∀ d, d.rest = t → good (.string s) d) :
    Ends (plainValue room) c good bad := by
  obtain ⟨inner, hinner⟩ := exists_valueWith room
  rw [hinner]
  exact ends_valueWith_string hw hq h hgood

section Texts

variable {good : List Value → Cursor → Prop} {bad : Cursor → Prop} {n : Nat}

theorem ends_itemsUpTo_texts {u : List UInt8} (hu : SpellsTexts u) (h : c.rest = u ++ t)
    (hn : c.rest.length < n)
    (hgood : ∀ vs d, vs.all isString = true → d.rest = Byte.closeBracket :: t → good vs d) :
    Ends (itemsUpTo (plainValue room) n false) c good bad := by
  induction hu generalizing n c good with
  | close hw =>
    obtain ⟨n, rfl⟩ : ∃ k, n = k + 1 := ⟨n - 1, by omega⟩
    rw [List.append_assoc] at h
    rw [itemsUpTo, ends_bind]
    refine ends_hasItem_close hw h fun d hd => ?_
    rw [if_neg Bool.false_ne_true]
    exact hgood [] d rfl hd
  | @more s w w' q u hw hw' hq hu ih =>
    obtain ⟨n, rfl⟩ : ∃ k, n = k + 1 := ⟨n - 1, by omega⟩
    obtain ⟨x, rfl⟩ := hq.exists_quote
    rw [List.append_assoc, List.cons_append, List.append_assoc, List.append_assoc] at h
    rw [itemsUpTo, ends_bind]
    refine ends_hasItem_next hw hw' .of_quote h fun d hd => ?_
    rw [if_pos rfl, ends_bind]
    refine ends_plainValue_string Blanks.nil hq hd fun e he => ?_
    rw [ends_bind]
    refine ih he ?_ fun vs d hvs hd => hgood _ d (by rw [List.all_cons, hvs]; rfl) hd
    simp only [h, List.length_append, List.length_cons] at hn
    simp only [he, List.length_append]
    omega

theorem ends_items_texts {q u : List UInt8} {s : String} (hw : Blanks w) (hq : SpellsString s q)
    (hu : SpellsTexts u) (h : c.rest = w ++ (q ++ (u ++ t)))
    (hgood : ∀ vs d, vs.all isString = true → d.rest = Byte.closeBracket :: t → good vs d) :
    Ends (items (plainValue room)) c good bad := by
  obtain ⟨x, rfl⟩ := hq.exists_quote
  unfold items
  rw [ends_bind, ends_get, itemsUpTo, ends_bind]
  refine ends_hasItem_first hw .of_quote h fun d hd => ?_
  rw [if_pos rfl, ends_bind]
  refine ends_plainValue_string Blanks.nil hq hd fun e he => ?_
  rw [ends_bind]
  refine ends_itemsUpTo_texts hu he ?_ fun vs d hvs hd =>
    hgood _ d (by rw [List.all_cons, hvs]; rfl) hd
  simp only [h, he, List.length_append, List.length_cons]
  omega

end Texts

/-- An audience is read as one. -/
theorem ends_plainValue_audience (hv : SpellsAudience v) (hw : Blanks w)
    (h : c.rest = w ++ (v ++ t)) {good : Value → Cursor → Prop} {bad : Cursor → Prop}
    (hgood : ∀ a d, isAudience a = true → d.rest = t → good a d) :
    Ends (plainValue (room + 1)) c good bad := by
  have hlist : ∀ {x : List UInt8}, c.rest = w ++ Byte.openBracket :: x →
      (∀ d, d.rest = x → Ends (items (plainValue room)) d
        (fun vs e => vs.all isString = true ∧ ∃ w, Blanks w ∧ e.rest = w ++ Byte.closeBracket :: t)
        fun _ => False) →
      Ends (plainValue (room + 1)) c good bad := by
    intro x h hitems
    show Ends (valueWith none (some (plainValue room))) c _ _
    unfold valueWith
    rw [ends_placed, ends_bind]
    refine ends_ahead?_of hw (by decide) h fun d hd => ?_
    show Ends (skip >>= fun _ => list (items (plainValue room)) >>= fun vs =>
      pure (Value.array vs)) d _ _
    rw [ends_bind, ends_skip, ends_bind]
    unfold list
    rw [ends_enclosed]
    refine (hitems _ (by rw [Cursor.rest_step, hd]; rfl)).mono ?_ fun _ h => h.elim
    rintro vs e ⟨hvs, w', hw', he⟩
    exact ends_closeList_of hw' he fun e' he' => hgood _ e' hvs he'
  cases hv with
  | text hq => exact ends_plainValue_string hw hq h fun d hd => hgood _ d rfl hd
  | none hu =>
    rw [List.cons_append, List.append_assoc] at h
    refine hlist h fun d hd => ?_
    unfold items
    rw [ends_bind, ends_get, itemsUpTo, ends_bind]
    refine ends_hasItem_close hu hd fun e he => ?_
    rw [if_neg Bool.false_ne_true]
    exact ⟨rfl, [], Blanks.nil, he⟩
  | texts hu hq ht =>
    rw [List.cons_append, List.append_assoc, List.append_assoc] at h
    exact hlist h fun d hd => ends_items_texts hu hq ht hd fun vs e hvs he =>
      ⟨hvs, [], Blanks.nil, he⟩

theorem SpellsAudience.exists_head (hv : SpellsAudience v) :
    ∃ b u, v = b :: u ∧ Starts b ∧ b ≠ Byte.smallN := by
  cases hv with
  | text hq =>
    obtain ⟨u, rfl⟩ := hq.exists_quote
    exact ⟨_, u, rfl, .of_quote, by decide⟩
  | none | texts => exact ⟨_, _, rfl, by unfold Starts; decide, by decide⟩

/-- An audience does not go unseen. -/
theorem ends_audienceNext_of (hv : SpellsAudience v) (hw : Blanks w)
    (h : c.rest = w ++ (v ++ t)) :
    Ends (audienceNext (room + 1)) c (fun seen d => seen = true ∧ d.rest = t) fun _ => False := by
  obtain ⟨b, u, rfl, hb, hn⟩ := hv.exists_head
  unfold audienceNext
  rw [ends_bind, ends_lenient]
  refine ends_optional_of hw hb.1 hn h fun d hd => ?_
  exact ends_plainValue_audience hv Blanks.nil hd fun a e ha he => ⟨ha, he⟩

/-! ## Places behind a field -/

section Astray

variable (hv : Spells .value v) (hw : Blanks w) (h : c.rest = w ++ (v ++ t)) (hend : Ended t)
  (ht : Lexed false t)

include hv hw h hend ht

theorem ends_audienceNext_astray :
    Ends (audienceNext room) c (fun _ d => Astray t d.rest) fun _ => False := by
  have hsettled : ∀ d, d.rest = v ++ t →
      Ends (plainValue room) d (fun _ e => Astray t e.rest) fun e => Astray t e.rest := by
    intro d hd
    apply (settles hv Blanks.nil hd hend ht).imp
    rintro _ e rfl
    exact .here
  unfold audienceNext
  rw [ends_bind, ends_lenient]
  apply (ends_optional_astray hv hw h hsettled).imp
  intro o d hd
  split
  · exact hd
  · exact hd

theorem ends_subject_astray :
    Ends subject c (fun _ d => Astray t d.rest) fun _ => False := by
  unfold subject
  rw [ends_bind, ends_lenient]
  exact ends_optional_astray hv hw h fun d hd =>
    ends_string_astray hv Blanks.nil hd hend ht

/-- Between the brackets of a list or an object a time is not looked for. -/
theorem ends_time_astray : Ends time c (fun _ d => Astray t d.rest) fun _ => False := by
  obtain ⟨b, u, hb, hstarts⟩ := hv.exists_head
  have hrest : c.rest = w ++ b :: (u ++ t) := by rw [h, hb]; rfl
  unfold time
  rw [ends_bind]
  refine ends_ahead?_of hw hstarts.1 hrest fun d hd => ?_
  split
  · next heq =>
    cases heq
    rw [ends_bind, ends_skip, ends_bind, ends_lenient]
    exact ends_closeList_opened (hb ▸ hv) (by rw [Cursor.rest_step, hd]; rfl)
  · next heq =>
    cases heq
    rw [ends_bind, ends_skip, ends_bind, ends_lenient]
    exact ends_closeObject_opened (hb ▸ hv) (by rw [Cursor.rest_step, hd]; rfl)
  · rw [ends_bind, ends_lenient]
    apply (settles hv Blanks.nil (by rw [hd, hb]; rfl) hend ht).imp
    rintro o e rfl
    split
    · exact .here
    · exact .here

end Astray

end Gatehouse.Token.Screening
