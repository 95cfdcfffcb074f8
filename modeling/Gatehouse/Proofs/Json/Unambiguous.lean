import Gatehouse.Proofs.Json.Fields

/-!
# One way to take a text apart

A reader that takes the same text twice ends in the same place. So the grammar leaves no choice
where a string or a value ends, and a text is an object with certain members in one way only
(`members_unique`).
-/

namespace Gatehouse.Json

open Reader

variable {w w' t t' : List UInt8}

/-- Two things known of the end of one reading hold together. -/
theorem Reader.Ends.both {α : Type} {r : Reader α} {c : Cursor} {good good' : α → Cursor → Prop}
    (h : Ends r c good fun _ => False) (h' : Ends r c good' fun _ => False) :
    ∃ a d, good a d ∧ good' a d := by
  obtain ⟨a, d, hread, hgood⟩ := h.exists_ok
  exact ⟨a, d, hgood, h'.good_of_ok hread⟩

/-- A string ends at its quote. -/
theorem SpellsString.unique {s s' : String} {q q' : List UInt8} (hq : SpellsString s q)
    (hq' : SpellsString s' q') (hw : Blanks w) (hw' : Blanks w')
    (h : w ++ (q ++ t) = w' ++ (q' ++ t')) : s = s' ∧ t = t' := by
  have hends : Ends (string "a string") (Cursor.start (w ++ (q ++ t)))
      (fun a d => a = s ∧ d.rest = t) fun _ => False :=
    ends_string_of hw hq (Cursor.rest_start _) fun _ hd => ⟨rfl, hd⟩
  have hends' : Ends (string "a string") (Cursor.start (w ++ (q ++ t)))
      (fun a d => a = s' ∧ d.rest = t') fun _ => False :=
    ends_string_of hw' hq' (by rw [Cursor.rest_start, h]) fun _ hd => ⟨rfl, hd⟩
  obtain ⟨_, d, ⟨rfl, hd⟩, rfl, hd'⟩ := hends.both hends'
  exact ⟨rfl, hd.symm.trans hd'⟩

/-- A value ends where no number goes on. -/
theorem Spells.unique {v v' : List UInt8} (hv : Spells .value v) (hv' : Spells .value v')
    (ht : Ended t) (ht' : Ended t') (hw : Blanks w) (hw' : Blanks w')
    (h : w ++ (v ++ t) = w' ++ (v' ++ t')) : v = v' ∧ t = t' := by
  have hends : Ends skipValue (Cursor.start (w ++ (v ++ t))) (fun _ d => d.rest = t)
      fun _ => False :=
    ends_skipValue_of hv hw (Cursor.rest_start _) ht fun _ hd => hd
  have hends' : Ends skipValue (Cursor.start (w ++ (v ++ t))) (fun _ d => d.rest = t')
      fun _ => False :=
    ends_skipValue_of hv' hw' (by rw [Cursor.rest_start, h]) ht' fun _ hd => hd
  obtain ⟨_, d, hd, hd'⟩ := hends.both hends'
  obtain rfl : t = t' := hd.symm.trans hd'
  rw [← List.append_assoc, ← List.append_assoc, List.append_cancel_right_eq] at h
  obtain ⟨b, u, rfl, hb⟩ := hv.exists_head
  obtain ⟨b', u', rfl, hb'⟩ := hv'.exists_head
  obtain ⟨rfl, rfl⟩ := hw.cons_inj hw' hb.1 hb'.1 h
  exact ⟨rfl, rfl⟩

/-! ## Members -/

section Members

variable {k k' : String} {v v' m m' : List UInt8} {ms ms' : List (String × List UInt8)}

theorem Member.unique (hm : Member k v m) (hm' : Member k' v' m') (ht : Ended t) (ht' : Ended t')
    (hw : Blanks w) (hw' : Blanks w') (h : w ++ (m ++ t) = w' ++ (m' ++ t')) :
    k = k' ∧ v = v' ∧ t = t' := by
  obtain ⟨q, w1, w2, rfl, hq, hw1, hw2, hv⟩ := hm
  obtain ⟨q', w1', w2', rfl, hq', hw1', hw2', hv'⟩ := hm'
  simp only [List.append_assoc, List.cons_append] at h
  obtain ⟨hk, hrest⟩ := hq.unique hq' hw hw' h
  obtain ⟨-, hvalue⟩ := hw1.cons_inj hw1' (by decide) (by decide) hrest
  exact ⟨hk, hv.unique hv' ht ht' hw2 hw2' hvalue⟩

theorem Trail.unique {u u' : List UInt8} (hu : Trail ms u) (hu' : Trail ms' u')
    (h : u ++ t = u' ++ t') : ms = ms' := by
  induction hu generalizing ms' u' with
  | close hw =>
    cases hu' with
    | close => rfl
    | more hw' =>
      rw [List.append_assoc, List.append_assoc] at h
      obtain ⟨hb, -⟩ := hw.cons_inj hw' (by decide) (by decide) h
      cases hb
  | more hw hw1 hm htrail ih =>
    cases hu' with
    | close hw' =>
      rw [List.append_assoc, List.append_assoc] at h
      obtain ⟨hb, -⟩ := hw.cons_inj hw' (by decide) (by decide) h
      cases hb
    | more hw' hw1' hm' htrail' =>
      simp only [List.append_assoc, List.cons_append] at h
      obtain ⟨-, hrest⟩ := hw.cons_inj hw' (by decide) (by decide) h
      obtain ⟨rfl, rfl, hrest⟩ := hm.unique hm' (htrail.spells.ended_members _)
        (htrail'.spells.ended_members _) hw1 hw1' hrest
      rw [ih htrail' hrest]

/-- An object has its members in one way, wherever it stands. -/
theorem members_unique {u u' : List UInt8} (hu : Members ms u) (hu' : Members ms' u')
    (hw : Blanks w) (hw' : Blanks w') (h : w ++ (u ++ t) = w' ++ (u' ++ t')) : ms = ms' := by
  have hbrace : ∀ {ms u}, Members ms u → ∃ r, u = Byte.openBrace :: r := by
    intro ms u h
    cases h <;> exact ⟨_, rfl⟩
  obtain ⟨r, rfl⟩ := hbrace hu
  obtain ⟨r', rfl⟩ := hbrace hu'
  rw [List.cons_append, List.cons_append] at h
  obtain ⟨-, hinner⟩ := hw.cons_inj hw' (by decide) (by decide) h
  cases hu with
  | none hw1 =>
    cases hu' with
    | none => rfl
    | some hw1' hm' =>
      obtain ⟨x, rfl⟩ := hm'.spells.exists_quote
      simp only [List.append_assoc, List.cons_append] at hinner
      obtain ⟨hb, -⟩ := hw1.cons_inj hw1' (by decide) (by decide) hinner
      cases hb
  | some hw1 hm htrail =>
    cases hu' with
    | none hw1' =>
      obtain ⟨x, rfl⟩ := hm.spells.exists_quote
      simp only [List.append_assoc, List.cons_append] at hinner
      obtain ⟨hb, -⟩ := hw1.cons_inj hw1' (by decide) (by decide) hinner
      cases hb
    | some hw1' hm' htrail' =>
      simp only [List.append_assoc] at hinner
      obtain ⟨rfl, rfl, hrest⟩ := hm.unique hm' (htrail.spells.ended_members _)
        (htrail'.spells.ended_members _) hw1 hw1' hinner
      rw [htrail.unique htrail' hrest]

end Members

/-! ## Whole texts -/

/-- A text is an object with these members, with blanks around it. -/
def ObjectText (text : String) (ms : List (String × List UInt8)) : Prop :=
  ∃ w u r, Utf8.encode text = w ++ (u ++ r) ∧ Blanks w ∧ Blanks r ∧ Members ms u

theorem ObjectText.unique {text : String} {ms ms' : List (String × List UInt8)}
    (h : ObjectText text ms) (h' : ObjectText text ms') : ms = ms' := by
  obtain ⟨w, u, r, htext, hw, -, hms⟩ := h
  obtain ⟨w', u', r', htext', hw', -, hms'⟩ := h'
  exact members_unique hms hms' hw hw' (htext.symm.trans htext')

theorem Members.objectText {text : String} {ms : List (String × List UInt8)}
    (h : Members ms (Utf8.encode text)) : ObjectText text ms :=
  ⟨[], _, [], (List.append_nil _).symm, Blanks.nil, Blanks.nil, h⟩

end Gatehouse.Json
