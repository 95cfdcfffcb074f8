import Gatehouse.Proofs.Token.Lenient
import Gatehouse.Proofs.Token.Payload

/-!
# Claims in a list

A list of the four claims is read as claims, but no screening of it gives a result: it looks for
five items, and the last of them, if not an earlier one, is missing (`not_ok_of_list`).
-/

namespace Gatehouse.Token.Screening

open Json Json.Reader

variable {c : Cursor} {room : Nat} {w t : List UInt8}

/-- No comma comes next. -/
def NoComma (rest : List UInt8) : Prop :=
  ∀ w t, Blanks w → rest ≠ w ++ Byte.comma :: t

theorem noComma_append {b : UInt8} (hw : Blanks w) (hb : Byte.isBlank b = false)
    (hcomma : b ≠ Byte.comma) : NoComma (w ++ b :: t) := by
  intro w' t' hw' heq
  exact hcomma (hw.cons_inj hw' hb (by decide) heq).1

section Items

variable {α : Type} {item : Reader α} {whole : String} {index : Nat}

theorem ends_itemAt_noComma (hindex : index ≠ 0) (h : NoComma c.rest) :
    Ends (itemAt whole index item) c (fun _ _ => False) fun _ => True := by
  unfold itemAt itemAt?
  rw [ends_bind]
  apply Ends.bind ends_hasItem
  rintro b d ⟨w, hw, ⟨rfl, -⟩ | ⟨rfl, hd⟩⟩
  · rw [if_neg Bool.false_ne_true]
    trivial
  · rw [if_neg (by simpa using hindex)] at hd
    obtain ⟨w', -, hd⟩ := hd
    exact absurd hd (h w _ hw)

variable {u v : List UInt8}

theorem ends_itemAt?_first (hw : Blanks w) (hv : Spells .value v) (h : c.rest = w ++ (v ++ t))
    {good : Option α → Cursor → Prop} {bad : Cursor → Prop}
    (hitem : ∀ d, d.rest = v ++ t → Ends item d (fun a e => good (some a) e) bad) :
    Ends (itemAt? 0 item) c good bad := by
  obtain ⟨b, v, rfl, hb⟩ := hv.exists_head
  unfold itemAt?
  rw [ends_bind]
  refine ends_hasItem_first hw hb h fun d hd => ?_
  rw [if_pos rfl, ends_bind]
  exact hitem d hd

variable (hu : Comma u) (hv : Spells .value v) (h : c.rest = u ++ (v ++ t))
  (hindex : (index == 0) = false)

include hu hv h hindex

theorem ends_itemAt?_next {good : Option α → Cursor → Prop} {bad : Cursor → Prop}
    (hitem : ∀ d, d.rest = v ++ t → Ends item d (fun a e => good (some a) e) bad) :
    Ends (itemAt? index item) c good bad := by
  obtain ⟨w, w', rfl, hw, hw'⟩ := hu
  obtain ⟨b, v, rfl, hb⟩ := hv.exists_head
  rw [List.append_assoc, List.cons_append] at h
  unfold itemAt?
  rw [ends_bind, hindex]
  refine ends_hasItem_next hw hw' hb h fun d hd => ?_
  rw [if_pos rfl, ends_bind]
  exact hitem d hd

theorem ends_itemAt_next {good : α → Cursor → Prop} {bad : Cursor → Prop}
    (hitem : ∀ d, d.rest = v ++ t → Ends item d good bad) :
    Ends (itemAt whole index item) c good bad := by
  unfold itemAt
  rw [ends_bind]
  exact ends_itemAt?_next hu hv h hindex hitem

end Items

/-! ## The items -/

theorem ends_time_string {s : String} {q : List UInt8} (hq : SpellsString s q)
    (h : c.rest = q ++ t) : Ends time c (fun _ d => d.rest = t) fun _ => False := by
  obtain ⟨u, rfl⟩ := hq.exists_quote
  unfold time
  rw [ends_bind]
  refine ends_ahead?_of Blanks.nil (by decide) h fun d hd => ?_
  show Ends (lenient (plainValue 0) >>= _) d _ _
  rw [ends_bind, ends_lenient]
  exact ends_plainValue_string Blanks.nil hq hd fun e he => he

/-- The time reader looks for the end of the object and comes to a halt at its first key. -/
theorem ends_time_object {x : List UInt8} (hw : Blanks w)
    (h : c.rest = Byte.openBrace :: (w ++ Byte.quote :: x)) :
    Ends time c (fun _ d => d.rest = Byte.quote :: x) fun _ => False := by
  unfold time
  rw [ends_bind]
  refine ends_ahead?_of Blanks.nil (by decide) h fun d hd => ?_
  show Ends (skip >>= fun _ => lenient closeObject >>= fun _ => pure none) d _ _
  rw [ends_bind, ends_skip, ends_bind, ends_lenient]
  unfold closeObject
  rw [ends_bind]
  have hstep : d.step.rest = w ++ Byte.quote :: x := by
    rw [Cursor.rest_step, hd]
    rfl
  exact ends_ahead?_of hw (by decide) hstep fun e he => he

theorem ends_time_choice {name : String} {v : List UInt8} (hv : SpellsChoice name v)
    (h : c.rest = v ++ t) :
    Ends time c (fun _ d => d.rest = t ∨ NoComma d.rest) fun _ => False := by
  rcases hv with hq | ⟨w, q, w', w'', u, rfl, hq, hw, -⟩
  · exact (ends_time_string hq h).imp fun _ _ h => .inl h
  · obtain ⟨x, rfl⟩ := hq.exists_quote
    simp only [List.cons_append, List.append_assoc] at h
    apply (ends_time_object hw h).imp
    intro o d hd
    rw [hd]
    exact .inr (noComma_append Blanks.nil (by decide) (by decide))

theorem ends_subject_numeral {i : Int} (h : c.rest = numeral i ++ t) (hend : Ended t) :
    Ends subject c (fun _ d => AtNumber t d.rest) fun _ => False := by
  unfold subject
  rw [ends_bind, ends_lenient]
  rcases numeral_cases i with ⟨-, hnum⟩ | ⟨-, hnum, b, ds, hb, hdigit⟩
  · rw [hnum, List.cons_append] at h
    refine ends_optional_of Blanks.nil (by decide) (by decide) h fun d hd => ?_
    unfold string
    rw [ends_placed, ends_bind]
    refine ends_ahead?_of Blanks.nil (by decide) hd fun e he => ?_
    exact ends_mismatch_negative (magnitude_digitsOf _) hend he
  · rw [hnum, hb, List.cons_append] at h
    refine ends_optional_of Blanks.nil (not_blank_of_digit hdigit)
      (by rintro rfl; cases hdigit) h fun d hd => ?_
    unfold string
    rw [ends_placed, ends_bind]
    refine ends_ahead?_of Blanks.nil (not_blank_of_digit hdigit) hd fun e he => ?_
    split
    · next heq => cases heq
    · next heq =>
      cases heq
      cases hdigit
    · refine ends_mismatch_number (magnitude_digitsOf i.natAbs) hend ?_
      rw [he, hb, List.cons_append]

theorem ends_audienceNext_numeral {i : Int64} (h : c.rest = numeral i.toInt ++ t)
    (hend : Ended t) :
    Ends (audienceNext room) c (fun _ d => d.rest = t) fun _ => False := by
  obtain ⟨b, u, hb, hstarts⟩ := (spells_numeral i.toInt).exists_head
  have hn : b ≠ Byte.smallN := by
    rintro rfl
    rcases numeral_cases i.toInt with ⟨-, hnum⟩ | ⟨-, hnum, b, ds, hds, hdigit⟩
    · rw [hnum] at hb
      cases hb
    · rw [hnum, hds] at hb
      cases hb
      cases hdigit
  obtain ⟨inner, hinner⟩ := exists_valueWith room
  rw [hb] at h
  unfold audienceNext
  rw [ends_bind, ends_lenient]
  refine ends_optional_of Blanks.nil hstarts.1 hn h fun d hd => ?_
  rw [hinner]
  exact ends_valueWith_numeral Blanks.nil (by rw [hd, hb]; rfl) hend fun e he => he

/-! ## The list -/

/-- A list of claims is too short, whatever the time reader makes of the role. -/
theorem ends_fromItems {claims : Claims} {x : List UInt8}
    (hlist : claims.InList (Byte.openBracket :: x)) (h : c.rest = x ++ t) :
    Ends (fromItems room) c (fun _ _ => False) fun _ => True := by
  obtain ⟨w, s, u, r, u', u'', w', hw, hs, hu, hr, hu', hu'', hw', heq⟩ := hlist
  cases heq
  simp only [List.append_assoc, List.cons_append, List.nil_append] at h
  unfold fromItems
  rw [ends_bind]
  refine ends_itemAt?_first hw hs.spells h fun d1 h1 => ?_
  refine (ends_time_string hs h1).mono ?_ fun _ h => h.elim
  intro _ d2 h2
  rw [ends_bind]
  refine ends_itemAt?_next hu hr.spells h2 rfl fun d3 h3 => ?_
  refine (ends_time_choice hr h3).mono ?_ fun _ h => h.elim
  -- a role that is an object leaves the reader in front of its key, where no item starts
  rintro _ d4 (h4 | h4)
  · rw [ends_bind]
    refine ends_itemAt_next hu' (spells_numeral _) h4 rfl fun d5 h5 => ?_
    refine (ends_subject_numeral h5 (hu''.ended _)).mono ?_ fun _ h => h.elim
    rintro _ d6 (h6 | ⟨x, _, h6, hdigit⟩)
    · rw [ends_bind]
      refine ends_itemAt_next hu'' (spells_numeral _) h6 rfl fun d7 h7 => ?_
      refine (ends_audienceNext_numeral h7 (ended_append hw' (.inr (.inl rfl)))).mono ?_
        fun _ h => h.elim
      intro _ d8 h8
      refine .bind (ends_itemAt_noComma (by decide) ?_) fun _ _ h => h.elim
      rw [h8]
      exact noComma_append hw' (by decide) (by decide)
    · refine .bind (ends_itemAt_noComma (by decide) ?_) fun _ _ h => h.elim
      rw [h6]
      exact noComma_append Blanks.nil (not_blank_of_digit hdigit) (by rintro rfl; cases hdigit)
  · exact .bind (ends_itemAt_noComma (by decide) h4) fun _ _ h => h.elim

theorem not_ok_of_list {claims : Claims} {bytes w t r : List UInt8} {s : Screening}
    (hw : Blanks w) (ht : claims.InList t) (hbytes : bytes = w ++ (t ++ r)) :
    (reader room).run bytes ≠ .ok s := by
  intro hrun
  obtain ⟨d, hread, -⟩ := run_eq_ok.mp hrun
  obtain ⟨x, rfl⟩ : ∃ x, t = Byte.openBracket :: x := by
    obtain ⟨_, _, _, _, _, _, _, -, -, -, -, -, -, -, rfl⟩ := ht
    exact ⟨_, rfl⟩
  have hends : Ends (reader room) (Cursor.start bytes) (fun _ _ => False) fun _ => True := by
    refine ends_record (fun w' e hw' he => ?_) fun w' e hw' he => ?_
    · rw [Cursor.rest_start, hbytes, List.cons_append] at he
      have hrest := (hw.cons_inj hw' (by decide) (by decide) he).2
      exact (ends_fromItems ht hrest.symm).imp fun _ _ h => h.elim
    · rw [Cursor.rest_start, hbytes, List.cons_append] at he
      cases (hw.cons_inj hw' (by decide) (by decide) he).1
  exact hends.good_of_ok hread

end Gatehouse.Token.Screening
