import Gatehouse.Proofs.Json.Taking
import Gatehouse.Proofs.Token.Lenient

/-!
# What a screening that gives a result has seen

A screening and the reader of the claims walk through the same payload. Behind every member they
stand at the same place or the screening is astray, and from there it finds no way back: the keys
that it still reads are those of a value inside or no field's names, and it never comes to the brace
that ends the payload (`ends_membersUpTo_lost`). A screening that gives a result has thus seen the
members that are there, the expiry and the audience among them (`ends_reader_object`).
-/

namespace Gatehouse.Token.Screening

open Json Json.Reader

variable {c : Cursor} {room : Nat} {t : List UInt8}

/-- What is left where an object that is the whole text ends. -/
def Finishes (rest : List UInt8) : Prop :=
  ∃ w u, Blanks w ∧ Blanks u ∧ rest = w ++ Byte.closeBrace :: u

/-- Astray, with more than blanks behind the values inside. -/
def Lost (rest : List UInt8) : Prop :=
  (∃ u s, Tail u ∧ Lexed false s ∧ ¬ Blanks s ∧ rest = u ++ s) ∨ Stuck rest ∨ Lexed true rest

theorem above_lexed {t s : List UInt8} (h : Above t s) (ht : Lexed false t) (hne : ¬ Blanks t) :
    Lexed false s ∧ ¬ Blanks s := by
  induction h with
  | here => exact ⟨ht, hne⟩
  | up hu _ ih =>
    refine ⟨hu.woven.lexed ih.1, fun hblanks => ih.2 ?_⟩
    exact fun b hb => hblanks b (List.mem_append_right _ hb)

theorem lost_of_astray {t rest : List UInt8} (h : Astray t rest) (ht : Lexed false t)
    (hne : ¬ Blanks t) : rest = t ∨ Lost rest := by
  rcases h with h | h | h
  · cases h with
    | here => exact .inl rfl
    | @up u s hu hs =>
      obtain ⟨hlexed, hblanks⟩ := above_lexed hs ht hne
      exact .inr (.inl ⟨u, s, hu, hlexed, hblanks, rfl⟩)
  · exact .inr (.inr (.inl h))
  · exact .inr (.inr (.inr h))

theorem not_finishes_of_lost {rest : List UInt8} (h : Lost rest) : ¬ Finishes rest := by
  rintro ⟨w, u, hw, hu, rfl⟩
  rcases h with ⟨v, s, hv, -, hblanks, heq⟩ | h | h
  · obtain ⟨w', v, hw', rfl, -, hcases⟩ := hv.cases
    have hdrop := congrArg (List.dropWhile Byte.isBlank) heq
    rw [hw.dropWhile_cons (by decide), List.append_assoc, hw'.dropWhile_append] at hdrop
    rcases hcases with rfl | rfl | ⟨_, _, _, -, -, rfl⟩
    · cases hdrop
    · cases hdrop
      exact hblanks hu
    · cases hdrop
  · rw [stuck_append hw] at h
    exact (h.head (by decide)).2.2 rfl
  · rw [lexed_append hw.code, lexed_cons rfl, ← List.append_nil u, lexed_append hu.code] at h
    cases h

/-! ## Members in step -/

/-- What members that are read in step do to the fields that decide. -/
structure Screened (ms : List (String × List UInt8)) (p p' : Partial) : Prop where
  exp : Took (fun o v => ∀ i : Int64, v = numeral i.toInt → o = timeOf? (Number.ofInt64 i))
    "exp" ms p.exp p'.exp
  aud : Took (fun seen v => SpellsAudience v → seen = true) "aud" ms p.aud p'.aud

theorem screened_nil (p : Partial) : Screened [] p p :=
  ⟨.nil, .nil⟩

section Member

variable {k : String} {p : Partial} {w w' v : List UInt8}

theorem ends_field_astray {α : Type} {name : String} {seen : Option α} {item : Reader α}
    {holds : α → Prop} (hw : Blanks w) (h : c.rest = w ++ Byte.colon :: (w' ++ (v ++ t)))
    (hitem : ∀ d, d.rest = w' ++ (v ++ t) →
      Ends item d (fun a e => holds a ∧ Astray t e.rest) fun _ => False) :
    Ends (field name seen item) c
      (fun o d => seen = none ∧ ∃ a, o = some a ∧ holds a ∧ Astray t d.rest) fun _ => True := by
  cases seen with
  | some a => trivial
  | none =>
    refine ends_field_of hw h fun d hd => ?_
    refine (hitem d hd).mono ?_ fun _ h => h.elim
    rintro a e ⟨ha, he⟩
    exact ⟨rfl, a, rfl, ha, he⟩

variable (hw : Blanks w) (hw' : Blanks w') (hv : Spells .value v) (hend : Ended t)
  (ht : Lexed false t)

include hw' hv hend ht

theorem ends_time_seen (h : c.rest = w' ++ (v ++ t)) :
    Ends time c
      (fun o d => (∀ i : Int64, v = numeral i.toInt → o = timeOf? (Number.ofInt64 i)) ∧
        Astray t d.rest)
      fun _ => False := by
  obtain ⟨o, d, hread, hd⟩ := (ends_time_astray hv hw' h hend ht).exists_ok
  unfold Ends
  rw [hread]
  refine ⟨?_, hd⟩
  rintro i rfl
  have hexact : Ends time c (fun o _ => o = timeOf? (Number.ofInt64 i)) fun _ => False :=
    ends_time_numeral hw' h hend fun _ _ => rfl
  exact hexact.good_of_ok hread

theorem ends_audienceNext_seen (h : c.rest = w' ++ (v ++ t)) :
    Ends (audienceNext (room + 1)) c
      (fun seen d => (SpellsAudience v → seen = true) ∧ Astray t d.rest) fun _ => False := by
  obtain ⟨seen, d, hread, hd⟩ := (ends_audienceNext_astray hv hw' h hend ht).exists_ok
  unfold Ends
  rw [hread]
  exact ⟨fun haudience => ((ends_audienceNext_of haudience hw' h).good_of_ok hread).1, hd⟩

include hw

/-- In front of a member's value the reader does what the value says, and then is behind it or
astray. -/
theorem ends_member_astray (h : c.rest = w ++ Byte.colon :: (w' ++ (v ++ t))) :
    Ends (member (room + 1) k p) c
      (fun p' d => Astray t d.rest ∧
        ∀ ms p'', Screened ms p' p'' → Screened ((k, v) :: ms) p p'')
      fun _ => True := by
  unfold member
  split
  · rw [ends_bind]
    refine (ends_field_astray hw h fun d hd => ends_time_seen hw' hv hend ht hd).imp ?_
    rintro o d ⟨hnone, a, rfl, ha, hd⟩
    refine ⟨hd, fun ms p'' h => ⟨?_, h.aud.other (by decide)⟩⟩
    rw [hnone]
    exact h.exp.self ha
  · rw [ends_bind]
    refine (ends_field_astray hw h fun d hd => ends_time_seen hw' hv hend ht hd).imp ?_
    rintro o d ⟨-, a, rfl, -, hd⟩
    exact ⟨hd, fun ms p'' h => ⟨h.exp.other (by decide), h.aud.other (by decide)⟩⟩
  · rw [ends_bind]
    refine (ends_field_astray hw h fun d hd =>
      (ends_subject_astray hv hw' hd hend ht).imp fun _ _ h => ⟨trivial, h⟩).imp ?_
    rintro o d ⟨-, a, rfl, -, hd⟩
    exact ⟨hd, fun ms p'' h => ⟨h.exp.other (by decide), h.aud.other (by decide)⟩⟩
  · rw [ends_bind]
    refine (ends_field_astray hw h fun d hd => ends_audienceNext_seen hw' hv hend ht hd).imp ?_
    rintro o d ⟨-, a, rfl, -, hd⟩
    exact ⟨hd, fun ms p'' h => ⟨h.exp.other (by decide), h.aud.other (by decide)⟩⟩
  · rw [ends_bind]
    refine (ends_field_astray hw h fun d hd => ends_audienceNext_seen hw' hv hend ht hd).imp ?_
    rintro o d ⟨hnone, a, rfl, ha, hd⟩
    refine ⟨hd, fun ms p'' h => ⟨h.exp.other (by decide), ?_⟩⟩
    rw [hnone]
    exact h.aud.self ha
  · next hexp _ _ _ haud =>
    refine ends_otherMember_of hw hw' hv hend h fun d hd => ?_
    exact ⟨by rw [hd]; exact .here, fun ms p'' h => ⟨h.exp.other hexp, h.aud.other haud⟩⟩

end Member

/-! ## Members astray -/

section Lost

variable {k : String} {p : Partial}

theorem ends_member_no_colon (h : ∀ w r, Blanks w → c.rest ≠ w ++ Byte.colon :: r) :
    Ends (member room k p) c (fun _ _ => False) fun _ => True := by
  have hcolon : Ends colon c (fun _ _ => False) fun _ => True := by
    apply ends_colon.imp
    rintro _ d ⟨w, hw, hd⟩
    exact h w _ hw hd
  have hfield : ∀ {α : Type} {name : String} {seen : Option α} {item : Reader α},
      Ends (field name seen item) c (fun _ _ => False) fun _ => True := by
    intro α name seen item
    cases seen with
    | some a => trivial
    | none => exact .bind hcolon fun _ _ h => h.elim
  unfold member
  split
  · exact .bind hfield fun _ _ h => h.elim
  · exact .bind hfield fun _ _ h => h.elim
  · exact .bind hfield fun _ _ h => h.elim
  · exact .bind hfield fun _ _ h => h.elim
  · exact .bind hfield fun _ _ h => h.elim
  · exact .bind hcolon fun _ _ h => h.elim

/-- A key of code is no field's name, so that its value is passed over. -/
theorem ends_member_of_code (hk : ∀ x ∈ k.toList, x ∉ ['b', 'd', 'i', 'x'])
    (h : Lexed true c.rest) :
    Ends (member room k p) c (fun _ d => Lexed true d.rest) fun _ => True := by
  unfold member
  split
  · exact absurd (by decide) (hk 'x' (by decide))
  · exact absurd (by decide) (hk 'b' (by decide))
  · exact absurd (by decide) (hk 'b' (by decide))
  · exact absurd (by decide) (hk 'i' (by decide))
  · exact absurd (by decide) (hk 'd' (by decide))
  · apply ends_otherMember.imp
    rintro p' d ⟨-, w, w', v, hw, hw', hv, hd⟩
    rw [hd, lexed_append hw.code, lexed_cons rfl, lexed_append hw'.code] at h
    exact (woven_of_spells hv).lexed_inside h

theorem ends_key_inner {x : List UInt8} (hx : Inner x) (ht : Lexed false t)
    (h : c.rest = Byte.quote :: (x ++ Byte.quote :: t)) :
    Ends key c (fun _ d => d.rest = t) fun _ => True := by
  unfold key
  rw [ends_bind, ends_skip]
  exact (ends_stringBody_inner hx ht (by rw [Cursor.rest_step, h]; rfl)).mono (fun _ _ h => h)
    fun _ _ => trivial

/-- Behind a value in a list the next item may be a string, but no colon follows it. -/
theorem ends_keyed_items {u s w w' : List UInt8} (hu : Spells .items u) (hs : Lexed false s)
    (hw : Blanks w) (hw' : Blanks w') (hquote : c.rest.head? = some Byte.quote)
    (h : w ++ Byte.comma :: (w' ++ c.rest) = u ++ s) :
    Ends key c
      (fun k d => Ends (member (room + 1) k p) d (fun _ e => Lost e.rest) fun _ => True)
      fun _ => True := by
  rw [Cursor.rest_of_head? hquote] at h
  cases hu with
  | closeList hw1 =>
    rw [List.append_assoc] at h
    cases (hw.cons_inj hw1 (by decide) (by decide) h).1
  | @item w1 w2 v u hw1 hw2 hv hu =>
    obtain ⟨b, v, rfl, hb⟩ := hv.exists_head
    rw [List.append_assoc, List.cons_append, List.append_assoc, List.append_assoc] at h
    have hrest := (hw.cons_inj hw1 (by decide) (by decide) h).2
    obtain ⟨rfl, hstep⟩ := hw'.cons_inj hw2 (by decide) hb.1 hrest
    have hlexed := (woven_of_spells hu).lexed hs
    cases hv with
    | number hm =>
      obtain ⟨_, _, heq, hdigit⟩ := hm.exists_head
      cases heq
      cases hdigit
    | @string x hx =>
      have hstring : c.rest = Byte.quote :: (x ++ Byte.quote :: (u ++ s)) := by
        rw [Cursor.rest_of_head? hquote, hstep]
        exact congrArg _ (List.append_assoc _ _ _)
      apply (ends_key_inner hx hlexed hstring).imp
      intro k d hd
      refine (ends_member_no_colon ?_).imp fun _ _ h => h.elim
      intro w3 r hw3 hcolon
      obtain ⟨w4, y, hw4, rfl, -, hcases⟩ := (show Tail u from .inl hu).cases
      rw [hd, List.append_assoc] at hcolon
      rcases hcases with rfl | rfl | ⟨_, _, _, -, -, rfl⟩
      · cases (hw4.cons_inj hw3 (by decide) (by decide) hcolon).1
      · cases (hw4.cons_inj hw3 (by decide) (by decide) hcolon).1
      · cases (hw4.cons_inj hw3 (by decide) (by decide) hcolon).1

/-- Behind a value in an object the next member has a key and a value of its own. -/
theorem ends_keyed_members {u s w w' : List UInt8} (hu : Spells .members u) (hs : Lexed false s)
    (hne : ¬ Blanks s) (hw : Blanks w) (hw' : Blanks w')
    (hquote : c.rest.head? = some Byte.quote) (h : w ++ Byte.comma :: (w' ++ c.rest) = u ++ s) :
    Ends key c
      (fun k d => Ends (member (room + 1) k p) d (fun _ e => Lost e.rest) fun _ => True)
      fun _ => True := by
  rw [Cursor.rest_of_head? hquote] at h
  cases hu with
  | closeObject hw1 =>
    rw [List.append_assoc] at h
    cases (hw.cons_inj hw1 (by decide) (by decide) h).1
  | @member w1 w2 m u hw1 hw2 hm hu =>
    rw [List.append_assoc, List.cons_append, List.append_assoc, List.append_assoc] at h
    have hrest := (hw.cons_inj hw1 (by decide) (by decide) h).2
    have hlexed := (woven_of_spells hu).lexed hs
    cases hm with
    | @pair x w3 w4 v hx hw3 hw4 hv =>
      simp only [List.cons_append, List.append_assoc] at hrest
      have hstep := (hw'.cons_inj hw2 (by decide) (by decide) hrest).2
      have hcolon : Lexed false (w3 ++ Byte.colon :: (w4 ++ (v ++ (u ++ s)))) := by
        rw [lexed_append hw3.code, lexed_cons rfl, lexed_append hw4.code]
        exact (woven_of_spells hv).lexed hlexed
      refine (ends_key_inner hx hcolon (by rw [Cursor.rest_of_head? hquote, hstep])).imp ?_
      intro k d hd
      apply (ends_member_astray hw3 hw4 hv (hu.ended_members s) hlexed hd).imp
      rintro p' e ⟨he, -⟩
      have hblanks : ¬ Blanks (u ++ s) :=
        fun hall => hne fun b hb => hall b (List.mem_append_right _ hb)
      rcases lost_of_astray he hlexed hblanks with hrest | hlost
      · exact .inl ⟨u, s, .inr hu, hs, hne, hrest⟩
      · exact hlost

theorem ends_keyed_above {u s w w' : List UInt8} (hu : Tail u) (hs : Lexed false s)
    (hne : ¬ Blanks s) (hw : Blanks w) (hw' : Blanks w')
    (hquote : c.rest.head? = some Byte.quote) (h : w ++ Byte.comma :: (w' ++ c.rest) = u ++ s) :
    Ends key c
      (fun k d => Ends (member (room + 1) k p) d (fun _ e => Lost e.rest) fun _ => True)
      fun _ => True := by
  rcases hu with hu | hu
  · exact ends_keyed_items hu hs hw hw' hquote h
  · exact ends_keyed_members hu hs hne hw hw' hquote h

/-- Members that are read astray never end at the brace that ends the payload. -/
theorem ends_membersUpTo_lost (n : Nat) (p : Partial) (h : Lost c.rest) :
    Ends (membersUpTo (member (room + 1)) n false p) c (fun _ d => ¬ Finishes d.rest)
      fun _ => True := by
  induction n generalizing p c with
  | zero => exact not_finishes_of_lost h
  | succ n ih =>
    rw [membersUpTo]
    apply Ends.bind ends_hasKey
    rintro b d ⟨w, hw, ⟨rfl, hd, -⟩ | ⟨rfl, hquote, w', hw', hd⟩⟩
    · rw [if_neg Bool.false_ne_true]
      rintro ⟨w', u, hw', hu, hrest⟩
      refine not_finishes_of_lost h ⟨w ++ w', u, hw.append hw', hu, ?_⟩
      rw [hd, hrest, List.append_assoc]
    · have hkeyed : Ends key d
          (fun k e => Ends (member (room + 1) k p) e (fun _ e' => Lost e'.rest) fun _ => True)
          fun _ => True := by
        rcases h with ⟨u, s, hu, hs, hne, heq⟩ | h | h
        · exact ends_keyed_above hu hs hne hw hw' hquote (by rw [← hd, heq])
        · rw [hd, stuck_append hw] at h
          exact absurd rfl (h.head (by decide)).1
        · rw [hd, lexed_append hw.code, lexed_cons rfl, lexed_append hw'.code] at h
          apply (ends_quoted hquote).imp
          rintro k e ⟨q, hq, he⟩
          rw [he] at h
          obtain ⟨hcode, hinside⟩ := Lexed.of_key hq h
          exact (ends_member_of_code hcode hinside).imp fun _ _ h => .inr (.inr h)
      rw [if_pos rfl]
      apply Ends.bind hkeyed
      intro k e he
      exact .bind he fun p' e' h => ih p' h

end Lost

/-! ## Whole objects -/

section Objects

variable {ms : List (String × List UInt8)} {r : List UInt8}

/-- A member in step and those behind it. -/
theorem ends_keyed_trail {k : String} {v m : List UInt8} (hm : Member k v m) (ht : Trail ms t)
    (hr : Blanks r) (h : c.rest = m ++ (t ++ r)) {n : Nat} (p : Partial)
    (htrail : ∀ p d, d.rest = t ++ r →
      Ends (membersUpTo (member (room + 1)) n false p) d
        (fun p' e => Finishes e.rest → Screened ms p p') fun _ => True) :
    Ends (key >>= fun k => member (room + 1) k p >>= fun p =>
        membersUpTo (member (room + 1)) n false p) c
      (fun p' d => Finishes d.rest → Screened ((k, v) :: ms) p p') fun _ => True := by
  obtain ⟨q, w, w', rfl, hq, hw, hw', hv⟩ := hm
  have hend := ht.spells.ended_members r
  have hlexed : Lexed false (t ++ r) := by
    refine (woven_of_spells ht.spells).lexed ?_
    rw [← List.append_nil r, lexed_append hr.code]
    exact .nil
  have hne : ¬ Blanks (t ++ r) := by
    intro hblanks
    obtain ⟨w1, x, -, rfl, -, hcases⟩ := (show Tail t from .inr ht.spells).cases
    have hx : ∀ b ∈ x, Byte.isBlank b = true := fun b hb =>
      hblanks b (List.mem_append_left _ (List.mem_append_right _ hb))
    rcases hcases with rfl | rfl | ⟨_, _, _, -, -, rfl⟩
    · cases hx _ List.mem_cons_self
    · cases hx _ List.mem_cons_self
    · cases hx _ List.mem_cons_self
  simp only [List.append_assoc, List.cons_append] at h
  rw [ends_bind]
  refine ends_quoted_of hq h fun d hd => ?_
  apply Ends.bind (ends_member_astray hw hw' hv hend hlexed hd)
  rintro p' e ⟨hastray, hscreened⟩
  rcases lost_of_astray hastray hlexed hne with hrest | hlost
  · exact (htrail p' e hrest).imp fun p'' _ h hfin => hscreened ms p'' (h hfin)
  · exact (ends_membersUpTo_lost n p' hlost).imp fun _ _ h hfin => absurd hfin h

theorem ends_membersUpTo_trail (ht : Trail ms t) (hr : Blanks r) (n : Nat) (p : Partial)
    (h : c.rest = t ++ r) :
    Ends (membersUpTo (member (room + 1)) n false p) c
      (fun p' d => Finishes d.rest → Screened ms p p') fun _ => True := by
  induction ht generalizing n p c with
  | close hw =>
    cases n with
    | zero => exact fun _ => screened_nil p
    | succ n =>
      rw [List.append_assoc] at h
      exact ends_membersUpTo_close hw h fun d _ _ => screened_nil p
  | @more k v w w' m t ms hw hw' hm ht ih =>
    cases n with
    | zero =>
      rintro ⟨w1, u, hw1, -, heq⟩
      rw [h, List.append_assoc, List.cons_append] at heq
      cases (hw.cons_inj hw1 (by decide) (by decide) heq).1
    | succ n =>
      obtain ⟨x, rfl⟩ := hm.spells.exists_quote
      simp only [List.append_assoc, List.cons_append] at h
      rw [membersUpTo, ends_bind]
      refine ends_hasKey_next hw hw' h fun d hd => ?_
      rw [if_pos rfl]
      exact ends_keyed_trail hm ht hr hd p fun p d hd => ih n p hd

/-- A screening has seen the expiry and the audience among some members. -/
structure Sees (s : Screening) (ms : List (String × List UInt8)) : Prop where
  exp : ∀ i : Int64, textsOf "exp" ms = [numeral i.toInt] → s.exp = timeOf? (Number.ofInt64 i)
  audience : ∀ v ∈ textsOf "aud" ms, SpellsAudience v → s.audience = true

theorem Screened.sees {p : Partial} (h : Screened ms {} p) :
    Sees ⟨p.exp.getD none, p.aud.getD false⟩ ms := by
  constructor
  · intro i hi
    rcases h.exp with ⟨hnil, -⟩ | ⟨-, o, v, htexts, ho, hsome⟩
    · rw [hnil] at hi
      cases hi
    · rw [htexts] at hi
      cases hi
      rw [hsome]
      exact ho i rfl
  · intro v hv haudience
    rcases h.aud with ⟨hnil, -⟩ | ⟨-, seen, v', htexts, hseen, hsome⟩
    · rw [hnil] at hv
      cases hv
    · rw [htexts, List.mem_singleton] at hv
      subst hv
      rw [hsome]
      exact hseen haudience

theorem ends_fromMembers (hms : Members ms (Byte.openBrace :: t)) (hr : Blanks r)
    (h : c.rest = t ++ r) :
    Ends (fromMembers (room + 1)) c (fun s d => Finishes d.rest → s.Sees ms) fun _ => True := by
  unfold fromMembers
  rw [ends_bind]
  unfold Reader.members
  rw [ends_bind, ends_get]
  have hmembers : Ends (membersUpTo (member (room + 1)) (c.rest.length + 1) true {}) c
      (fun p d => Finishes d.rest → Screened ms {} p) fun _ => True := by
    cases hms with
    | none hw =>
      rw [List.append_assoc] at h
      exact ends_membersUpTo_close hw h fun d _ _ => screened_nil _
    | @some k v w m t ms hw hm ht =>
      obtain ⟨x, rfl⟩ := hm.spells.exists_quote
      simp only [List.append_assoc, List.cons_append] at h
      rw [membersUpTo, ends_bind]
      refine ends_hasKey_first hw h fun d hd => ?_
      rw [if_pos rfl]
      exact ends_keyed_trail hm ht hr hd _ fun p d hd => ends_membersUpTo_trail ht hr _ p hd
  exact hmembers.imp fun p d hp hfin => (hp hfin).sees

/-- A screening of a whole object has seen its members. -/
theorem sees_of_run {bytes w : List UInt8} {s : Screening}
    (hrun : (reader (room + 2)).run bytes = .ok s) (hw : Blanks w) (hr : Blanks r)
    (hms : Members ms t) (hbytes : bytes = w ++ (t ++ r)) : s.Sees ms := by
  obtain ⟨d, hread, hd⟩ := run_eq_ok.mp hrun
  obtain ⟨t, rfl⟩ : ∃ u, t = Byte.openBrace :: u := by
    cases hms with
    | none => exact ⟨_, rfl⟩
    | some => exact ⟨_, rfl⟩
  have hends : Ends (reader (room + 2)) (Cursor.start bytes)
      (fun s d => Blanks d.rest → s.Sees ms) fun _ => True := by
    refine ends_record_object hw (by rw [Cursor.rest_start, hbytes]; rfl) fun e he => ?_
    refine (ends_fromMembers hms hr he).mono ?_ fun _ _ => ends_trivial _
    intro s e' hs
    apply ends_closeObject.imp
    rintro _ e'' ⟨w', hw', he''⟩ hblanks
    exact hs ⟨w', _, hw', hblanks, he''⟩
  exact hends.good_of_ok hread (blanks_of_dropWhile hd)

end Objects

end Gatehouse.Token.Screening
