import Gatehouse.Proofs.Json.Taking
import Gatehouse.Proofs.Token.Issued

/-!
# What claims are read from

Claims are read from an object that has each of them as the one member under its name, among any
others (`InMembers`), or from a list of the four in their order (`InList`). Nothing else gives
claims (`ends_reader`): a key that comes twice, a number with a fraction or an exponent, a role by
another name are all refused.
-/

namespace Gatehouse

open Json Json.Reader

namespace Json

theorem SpellsChoice.spells {name : String} {v : List UInt8} (h : SpellsChoice name v) :
    Spells .value v := by
  rcases h with h | ⟨w, q, w', w'', u, rfl, ⟨t, bs, rfl, ht, -⟩, hw, hw', hw'', hu⟩
  · exact h.spells
  · have hpair := Spells.pair ht.inner hw' hw'' .null
    have hobject := Spells.object hw hpair (.closeObject hu)
    simp only [List.cons_append, List.append_assoc, List.nil_append] at hobject ⊢
    exact hobject

end Json

theorem lookup_names {α : Type} {f : α → String} {xs : List α} {name : String} {a : α}
    (h : (xs.map fun a => (f a, a)).lookup name = some a) : f a = name := by
  obtain ⟨l, l', heq, -⟩ := List.lookup_eq_some_iff.mp h
  have hmem : (name, a) ∈ xs.map fun a => (f a, a) := by
    rw [heq]
    simp
  obtain ⟨b, -, hb⟩ := List.mem_map.mp hmem
  cases hb
  rfl

namespace Claims

variable {room : Nat} {cursor : Cursor}

theorem ends_role :
    Ends (Role.reader room) cursor
      (fun r d => ∃ w v, Blanks w ∧ SpellsChoice r.name v ∧ cursor.rest = w ++ (v ++ d.rest))
      fun _ => True := by
  unfold Role.reader
  apply ends_choice.imp
  rintro r d ⟨w, name, v, hw, hv, hr, hd⟩
  have hname : r.name = name := lookup_names hr
  exact ⟨w, v, hw, by rw [hname]; exact hv, hd⟩

theorem ends_seconds :
    Ends int64 cursor
      (fun i d => ∃ w v, Blanks w ∧ v = numeral i.toInt ∧ cursor.rest = w ++ (v ++ d.rest))
      fun _ => True := by
  refine ends_int64.imp ?_
  rintro i d ⟨w, hw, hd⟩
  exact ⟨w, _, hw, rfl, hd⟩

/-! ## Objects -/

/-- What the members of an object did to the claims read so far. -/
structure Gathered (ms : List (String × List UInt8)) (p p' : Partial) : Prop where
  sub : Took SpellsString "sub" ms p.sub p'.sub
  role : Took (fun r : Role => SpellsChoice r.name) "role" ms p.role p'.role
  exp : Took (fun (i : Int64) v => v = numeral i.toInt) "exp" ms p.exp p'.exp
  iat : Took (fun (i : Int64) v => v = numeral i.toInt) "iat" ms p.iat p'.iat

theorem gathered_nil (p : Partial) : Gathered [] p p :=
  ⟨.nil, .nil, .nil, .nil⟩

theorem gathers_member : MemberLaw Gathered (member room) := by
  intro k p c
  unfold member
  split
  · apply Ends.bind (ends_field fun d => ends_string)
    rintro o d ⟨hnone, s, w, w', v, rfl, hw, hw', hv, hd⟩
    refine ⟨w, w', v, hw, hw', hv.spells, hd, fun ms p'' h => ⟨?_, ?_, ?_, ?_⟩⟩
    · rw [hnone]
      exact h.sub.self hv
    · exact h.role.other (by decide)
    · exact h.exp.other (by decide)
    · exact h.iat.other (by decide)
  · apply Ends.bind (ends_field fun d => ends_role)
    rintro o d ⟨hnone, r, w, w', v, rfl, hw, hw', hv, hd⟩
    refine ⟨w, w', v, hw, hw', hv.spells, hd, fun ms p'' h => ⟨?_, ?_, ?_, ?_⟩⟩
    · exact h.sub.other (by decide)
    · rw [hnone]
      exact h.role.self hv
    · exact h.exp.other (by decide)
    · exact h.iat.other (by decide)
  · apply Ends.bind (ends_field fun d => ends_seconds)
    rintro o d ⟨hnone, i, w, w', v, rfl, hw, hw', rfl, hd⟩
    refine ⟨w, w', _, hw, hw', spells_numeral _, hd, fun ms p'' h => ⟨?_, ?_, ?_, ?_⟩⟩
    · exact h.sub.other (by decide)
    · exact h.role.other (by decide)
    · rw [hnone]
      exact h.exp.self rfl
    · exact h.iat.other (by decide)
  · apply Ends.bind (ends_field fun d => ends_seconds)
    rintro o d ⟨hnone, i, w, w', v, rfl, hw, hw', rfl, hd⟩
    refine ⟨w, w', _, hw, hw', spells_numeral _, hd, fun ms p'' h => ⟨?_, ?_, ?_, ?_⟩⟩
    · exact h.sub.other (by decide)
    · exact h.role.other (by decide)
    · exact h.exp.other (by decide)
    · rw [hnone]
      exact h.iat.self rfl
  · next hsub hrole hexp hiat =>
    apply ends_otherMember.imp
    rintro p' d ⟨rfl, w, w', v, hw, hw', hv, hd⟩
    refine ⟨w, w', v, hw, hw', hv, hd, fun ms p'' h => ⟨?_, ?_, ?_, ?_⟩⟩
    · exact h.sub.other hsub
    · exact h.role.other hrole
    · exact h.exp.other hexp
    · exact h.iat.other hiat

/-- The members of an object carry the claims. -/
structure InMembers (c : Claims) (ms : List (String × List UInt8)) : Prop where
  sub : ∃ v, textsOf "sub" ms = [v] ∧ SpellsString c.sub v
  role : (textsOf "role" ms = [] ∧ c.role = .user) ∨
    ∃ v, textsOf "role" ms = [v] ∧ SpellsChoice c.role.name v
  exp : textsOf "exp" ms = [numeral c.exp.toInt]
  iat : textsOf "iat" ms = [numeral c.iat.toInt]

theorem ends_fromMembers :
    Ends (fromMembers room) cursor
      (fun c d => ∀ w r, Blanks w → d.rest = w ++ Byte.closeBrace :: r →
        ∃ ms t, Members ms (Byte.openBrace :: t) ∧ cursor.rest = t ++ r ∧ c.InMembers ms)
      fun _ => True := by
  unfold fromMembers
  apply Ends.bind (ends_members gathered_nil gathers_member _)
  intro p d hd
  rcases p with ⟨_ | sub, role, _ | exp, _ | iat⟩ <;> try trivial
  intro w r hw hr
  obtain ⟨ms, t, hms, hrest, hgathered⟩ := hd w r hw hr
  obtain ⟨v, hexp, rfl⟩ := hgathered.exp.of_some
  obtain ⟨v', hiat, rfl⟩ := hgathered.iat.of_some
  refine ⟨ms, t, hms, hrest, hgathered.sub.of_some, ?_, hexp, hiat⟩
  cases role with
  | none => exact .inl ⟨hgathered.role.of_none, rfl⟩
  | some role => exact .inr hgathered.role.of_some

/-! ## Lists -/

/-- A list holds the claims in their order. -/
def InList (c : Claims) (t : List UInt8) : Prop :=
  ∃ w s u r u' u'' w', Blanks w ∧ SpellsString c.sub s ∧ Comma u ∧ SpellsChoice c.role.name r ∧
    Comma u' ∧ Comma u'' ∧ Blanks w' ∧
    t = Byte.openBracket :: (w ++ (s ++ (u ++ (r ++ (u' ++ (numeral c.exp.toInt ++ (u'' ++
      (numeral c.iat.toInt ++ (w' ++ [Byte.closeBracket])))))))))

/-- The role can be left out of an object but not of a list, where the expiry would take its
place. -/
theorem ends_fromItems :
    Ends (fromItems room) cursor
      (fun c d => ∀ w r, Blanks w → d.rest = w ++ Byte.closeBracket :: r →
        ∃ t, c.InList (Byte.openBracket :: t) ∧ cursor.rest = t ++ r)
      fun _ => True := by
  unfold fromItems
  apply Ends.bind (ends_itemAt fun d => ends_string)
  rintro sub d1 ⟨s, hs, w, hw, h1⟩
  apply Ends.bind (ends_itemAt? fun d => ends_role)
  intro role d2 h2
  apply Ends.bind (ends_itemAt fun d => ends_seconds)
  rintro exp d3 ⟨_, rfl, u', hu', h3⟩
  apply Ends.bind (ends_itemAt fun d => ends_seconds)
  rintro iat d4 ⟨_, rfl, u'', hu'', h4⟩
  rcases h2 with ⟨-, hclose⟩ | ⟨role, r, rfl, hr, u, hu, h2⟩
  · rw [h3] at hclose
    exact absurd hclose hu'.head?_ne
  · intro w' rest hw' hrest
    refine ⟨_, ⟨w, s, u, r, u', u'', w', hw, hs, hu, hr, hu', hu'', hw', rfl⟩, ?_⟩
    rw [h1, h2, h3, h4, hrest]
    simp only [List.append_assoc, List.cons_append, List.nil_append]

theorem ends_reader :
    Ends (reader room) cursor
      (fun c d => ∃ w t, Blanks w ∧ cursor.rest = w ++ (t ++ d.rest) ∧
        ((∃ ms, Members ms t ∧ c.InMembers ms) ∨ c.InList t))
      fun _ => True := by
  unfold reader
  refine ends_record (fun w d hw hd => ?_) fun w d hw hd => ?_
  · apply ends_fromItems.imp
    intro c e he
    apply ends_closeList.imp
    rintro _ e' ⟨w', hw', he'⟩
    obtain ⟨t, ht, hrest⟩ := he w' e'.rest hw' he'
    exact ⟨w, _, hw, by rw [hd, hrest]; rfl, .inr ht⟩
  · apply ends_fromMembers.imp
    intro c e he
    apply ends_closeObject.imp
    rintro _ e' ⟨w', hw', he'⟩
    obtain ⟨ms, t, hms, hrest, hc⟩ := he w' e'.rest hw' he'
    exact ⟨w, _, hw, by rw [hd, hrest]; rfl, .inl ⟨ms, hms, hc⟩⟩

end Claims

end Gatehouse
