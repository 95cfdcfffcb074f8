import Gatehouse.Proofs.Token.KeyForm
import Gatehouse.Proofs.Token.Payload

/-!
# What a header is read from

A header is an object that names its algorithm in the one member under `alg`, or a list that names
it in its second item (`Names`). The algorithm is a string or an object with the name as its one
key; whatever else a header holds is passed over.
-/

namespace Gatehouse.Token.Header

open Json Json.Reader

variable {c : Cursor} {room : Nat}

/-! ## Fields that are passed over -/

/-- A reader takes a value, whatever it says. -/
def Passes (item : Reader Unit) : Prop :=
  ∀ c, Ends item c (fun _ d => ∃ w v, Blanks w ∧ Spells .value v ∧ c.rest = w ++ (v ++ d.rest))
    fun _ => True

theorem ends_text :
    Ends (string "a string") c
      (fun _ d => ∃ w v, Blanks w ∧ Spells .value v ∧ c.rest = w ++ (v ++ d.rest))
      fun _ => True := by
  apply ends_string.imp
  rintro s d ⟨w, q, hw, hq, hd⟩
  exact ⟨w, q, hw, hq.spells, hd⟩

theorem passes_optionalText : Passes optionalText := by
  intro c
  unfold optionalText
  rw [ends_bind]
  exact ends_optional fun _ => ends_text

theorem passes_optionalTexts : Passes (optionalTexts room) := by
  intro c
  unfold optionalTexts
  rw [ends_bind]
  exact ends_optional fun _ => ends_listOf fun _ => ends_text

theorem passes_optionalKey : Passes (optionalKey room) := by
  intro c
  unfold optionalKey
  rw [ends_bind]
  refine ends_optional fun d => Key.ends_reader.imp ?_
  rintro _ e ⟨w, t, texts, ms, hw, ht, -, -, he⟩
  exact ⟨w, t, hw, ht.spells, he⟩

/-! ## Objects -/

/-- What the members of an object did to the algorithm. -/
def Gathered (ms : List (String × List UInt8)) (p p' : Partial) : Prop :=
  Took (fun a : Algorithm => SpellsChoice a.name) "alg" ms p.algorithm p'.algorithm

theorem ends_algorithm :
    Ends (Algorithm.reader room) c
      (fun a d => ∃ w v, Blanks w ∧ SpellsChoice a.name v ∧ c.rest = w ++ (v ++ d.rest))
      fun _ => True := by
  unfold Algorithm.reader
  apply ends_choice.imp
  rintro a d ⟨w, name, v, hw, hv, ha, hd⟩
  have hname : a.name = name := lookup_names ha
  exact ⟨w, v, hw, by rw [hname]; exact hv, hd⟩

theorem ends_passed {name : String} {p : Partial} {item : Reader Unit} (hitem : Passes item) :
    Ends (passed name p item) c
      (fun p' d => p'.algorithm = p.algorithm ∧ ∃ w w' v, Blanks w ∧ Blanks w' ∧
        Spells .value v ∧ c.rest = w ++ Byte.colon :: (w' ++ (v ++ d.rest)))
      fun _ => True := by
  unfold passed
  apply Ends.bind (ends_field hitem)
  rintro o d ⟨-, _, w, w', v, -, hw, hw', hv, hd⟩
  exact ⟨rfl, w, w', v, hw, hw', hv, hd⟩

theorem gathers_member : MemberLaw Gathered (member room) := by
  intro k p c
  have hpassed : ∀ {item : Reader Unit}, k ≠ "alg" → Passes item →
      Ends (passed k p item) c
        (fun p' d => ∃ w w' v, Blanks w ∧ Blanks w' ∧ Spells .value v ∧
          c.rest = w ++ Byte.colon :: (w' ++ (v ++ d.rest)) ∧
          ∀ ms p'', Gathered ms p' p'' → Gathered ((k, v) :: ms) p p'')
        fun _ => True := by
    intro item hk hitem
    apply (ends_passed hitem).imp
    rintro p' d ⟨hsame, w, w', v, hw, hw', hv, hd⟩
    refine ⟨w, w', v, hw, hw', hv, hd, fun ms p'' h => Took.other hk ?_⟩
    rw [← hsame]
    exact h
  unfold member
  split
  · apply Ends.bind (ends_field fun d => ends_algorithm)
    rintro o d ⟨hnone, a, w, w', v, rfl, hw, hw', hv, hd⟩
    refine ⟨w, w', v, hw, hw', hv.spells, hd, fun ms p'' h => ?_⟩
    unfold Gathered
    rw [hnone]
    exact Took.self hv h
  · exact hpassed (by decide) passes_optionalText
  · exact hpassed (by decide) passes_optionalText
  · exact hpassed (by decide) passes_optionalText
  · exact hpassed (by decide) passes_optionalText
  · exact hpassed (by decide) passes_optionalText
  · exact hpassed (by decide) passes_optionalText
  · exact hpassed (by decide) passes_optionalText
  · exact hpassed (by decide) passes_optionalKey
  · exact hpassed (by decide) passes_optionalTexts
  · next halg _ _ _ _ _ _ _ _ _ =>
    apply ends_otherMember.imp
    rintro p' d ⟨rfl, w, w', v, hw, hw', hv, hd⟩
    exact ⟨w, w', v, hw, hw', hv, hd, fun ms p'' h => Took.other halg h⟩

theorem ends_fromMembers :
    Ends (fromMembers room) c
      (fun header d => ∀ w r, Blanks w → d.rest = w ++ Byte.closeBrace :: r →
        ∃ ms t v, Members ms (Byte.openBrace :: t) ∧ c.rest = t ++ r ∧ textsOf "alg" ms = [v] ∧
          SpellsChoice header.algorithm.name v)
      fun _ => True := by
  unfold fromMembers
  apply Ends.bind (ends_members (fun _ => .nil) gathers_member _)
  intro p d hd
  rcases p with ⟨_ | a, others⟩
  · trivial
  · intro w r hw hr
    obtain ⟨ms, t, hms, hrest, hgathered⟩ := hd w r hw hr
    obtain ⟨v, htexts, hv⟩ := Took.of_some hgathered
    exact ⟨ms, t, v, hms, hrest, htexts, hv⟩

/-! ## Lists -/

theorem spells_item {u v y : List UInt8} (hu : Comma u) (hv : Spells .value v)
    (hy : Spells .items y) : Spells .items (u ++ (v ++ y)) := by
  obtain ⟨w, w', rfl, hw, hw'⟩ := hu
  rw [List.append_assoc, List.cons_append]
  exact .item hw hw' hv hy

/-- What was passed over between two places belongs to the items of one list. -/
def PassedOver (c d : Cursor) : Prop :=
  ∀ y r, Spells .items y → d.rest = y ++ r → ∃ y', Spells .items y' ∧ c.rest = y' ++ r

theorem PassedOver.trans {c d e : Cursor} (h : PassedOver c d) (h' : PassedOver d e) :
    PassedOver c e := by
  intro y r hy he
  obtain ⟨y', hy', hd⟩ := h' y r hy he
  exact h y' r hy' hd

theorem ends_passedItem {item : Reader Unit} (hitem : Passes item) {whole : String} {index : Nat}
    (hindex : index ≠ 0) {next : Unit → Reader Header} {good : Header → Cursor → Prop}
    (hnext : ∀ d, PassedOver c d → Ends (next ()) d good fun _ => True) :
    Ends (itemAt whole index item >>= next) c good fun _ => True := by
  apply Ends.bind (ends_itemAt hitem)
  rintro _ d ⟨v, hv, hahead⟩
  refine hnext d fun y r hy hd => ?_
  unfold ItemAhead at hahead
  rw [if_neg hindex] at hahead
  obtain ⟨u, hu, hrest⟩ := hahead
  refine ⟨_, spells_item hu hv hy, ?_⟩
  rw [hrest, hd]
  simp only [List.append_assoc]

theorem ends_fromItems :
    Ends (fromItems room) c
      (fun header d => ∀ w r, Blanks w → d.rest = w ++ Byte.closeBracket :: r →
        ∃ w x u v y, Blanks w ∧ Spells .value x ∧ Comma u ∧
          SpellsChoice header.algorithm.name v ∧ Spells .items y ∧
          c.rest = w ++ (x ++ (u ++ (v ++ (y ++ r)))))
      fun _ => True := by
  unfold fromItems
  apply Ends.bind (ends_itemAt passes_optionalText)
  rintro _ d0 ⟨x, hx, w, hw, h0⟩
  apply Ends.bind (ends_itemAt fun _ => ends_algorithm)
  rintro a d1 ⟨v, hv, u, hu, h1⟩
  refine ends_passedItem passes_optionalText (by decide) fun d h => ?_
  refine ends_passedItem passes_optionalText (by decide) fun d' h' => ?_
  replace h := h.trans h'
  refine ends_passedItem passes_optionalKey (by decide) fun d' h' => ?_
  replace h := h.trans h'
  refine ends_passedItem passes_optionalText (by decide) fun d' h' => ?_
  replace h := h.trans h'
  refine ends_passedItem passes_optionalText (by decide) fun d' h' => ?_
  replace h := h.trans h'
  refine ends_passedItem passes_optionalTexts (by decide) fun d' h' => ?_
  replace h := h.trans h'
  refine ends_passedItem passes_optionalText (by decide) fun d' h' => ?_
  replace h := h.trans h'
  refine ends_passedItem passes_optionalText (by decide) fun d' h' => ?_
  replace h := h.trans h'
  intro w' r hw' hr
  obtain ⟨y, hy, hd1⟩ := h _ r (.closeList hw') (by rw [hr, List.append_assoc]; rfl)
  exact ⟨w, x, u, v, y, hw, hx, hu, hv, hy, by rw [h0, h1, hd1]⟩

/-! ## Headers -/

/-- A text names an algorithm in the way of a header. -/
def Names (a : Algorithm) (t : List UInt8) : Prop :=
  (∃ ms v, Members ms t ∧ textsOf "alg" ms = [v] ∧ SpellsChoice a.name v) ∨
    ∃ w x u v y, Blanks w ∧ Spells .value x ∧ Comma u ∧ SpellsChoice a.name v ∧ Spells .items y ∧
      t = Byte.openBracket :: (w ++ (x ++ (u ++ (v ++ y))))

theorem ends_reader :
    Ends (reader room) c
      (fun header d => ∃ w t, Blanks w ∧ Names header.algorithm t ∧ c.rest = w ++ (t ++ d.rest))
      fun _ => True := by
  unfold reader
  refine ends_record (fun w d hw hd => ?_) fun w d hw hd => ?_
  · apply ends_fromItems.imp
    intro header e he
    apply ends_closeList.imp
    rintro _ e' ⟨w', hw', he'⟩
    obtain ⟨w'', x, u, v, y, hw'', hx, hu, hv, hy, hrest⟩ := he w' _ hw' he'
    refine ⟨w, _, hw, .inr ⟨w'', x, u, v, y, hw'', hx, hu, hv, hy, rfl⟩, ?_⟩
    rw [hd, hrest]
    simp only [List.append_assoc, List.cons_append]
  · apply ends_fromMembers.imp
    intro header e he
    apply ends_closeObject.imp
    rintro _ e' ⟨w', hw', he'⟩
    obtain ⟨ms, t, v, hms, hrest, htexts, hv⟩ := he w' _ hw' he'
    exact ⟨w, _, hw, .inl ⟨ms, v, hms, htexts, hv⟩, by rw [hd, hrest]; rfl⟩

end Gatehouse.Token.Header
