import Gatehouse.Proofs.Json.Records
import Gatehouse.Token.Validation

/-!
# Reading what was issued

The header and the claims of a token that was signed here are read back as they were, and the
screening of the payload finds its expiry and no audience.
-/

namespace Gatehouse

open Json Json.Reader

theorem Json.numberChars_ofInt64 (i : Int64) : (Number.ofInt64 i).chars = integerChars i.toInt := by
  rcases ofInt64_cases i with ⟨-, u, hu, hval⟩ | ⟨-, hneg⟩
  · rw [hu, Number.chars, hval]
  · rw [hneg, Number.chars]

namespace Claims

/-! ## Claims -/

/-- The texts of the values of printed claims. -/
theorem printedMembers_members (c : Claims) :
    printedMembers c.members = [("sub", Utf8.encodeChars (stringChars c.sub)),
      ("role", Utf8.encodeChars (stringChars c.role.name)), ("exp", numeral c.exp.toInt),
      ("iat", numeral c.iat.toInt)] := by
  simp only [printedMembers, members, Role.toJson, List.map_cons, List.map_nil, Value.chars,
    numberChars_ofInt64, numeral]

/-- The text of printed claims is an object with these members. -/
theorem members_render (c : Claims) :
    Members [("sub", Utf8.encodeChars (stringChars c.sub)),
      ("role", Utf8.encodeChars (stringChars c.role.name)), ("exp", numeral c.exp.toInt),
      ("iat", numeral c.iat.toInt)] (Utf8.encode c.toJson.render) := by
  rw [← printedMembers_members]
  exact members_chars c.members

theorem lookup_role (r : Role) : (Role.all.map fun r => (r.name, r)).lookup r.name = some r := by
  cases r <;> rfl

/-- Printed claims are read back. -/
theorem run_reader_render (c : Claims) (room : Nat) :
    (reader (room + 1)).run (Utf8.encode c.toJson.render) = .ok c := by
  have hsub : Yields (string "a string") _ c.sub :=
    yields_string (spellsString_stringChars c.sub)
  have hrole : Yields (Role.reader room) _ c.role :=
    yields_choice (spellsString_stringChars c.role.name) (lookup_role c.role)
  have hyields : Yields (reader (room + 1)) (Utf8.encode c.toJson.render) c :=
    yields_record c.members_render (.cons (accepts_field rfl hsub) <|
      .cons (accepts_field rfl hrole) <| .cons (accepts_field rfl (yields_int64 c.exp)) <|
      .cons (accepts_field rfl (yields_int64 c.iat)) <| .nil _) rfl
  exact hyields.run_alone

end Claims

namespace Token.Screening

/-! ## Screening -/

theorem ends_lenient {α : Type} {r : Reader α} {c : Cursor}
    {good : Option α → Cursor → Prop} {bad : Cursor → Prop} :
    Ends (lenient r) c good bad ↔
      Ends r c (fun a d => good (some a) d) fun d => good none d := by
  unfold Ends lenient
  cases r c <;> rfl

theorem ends_time_numeral {cursor : Cursor} {w t : List UInt8} {bad : Cursor → Prop} {i : Int64}
    (hw : Blanks w) (h : cursor.rest = w ++ (numeral i.toInt ++ t)) (ht : Ended t)
    {good : Option UInt64 → Cursor → Prop}
    (hgood : ∀ d, d.rest = t → good (timeOf? (Number.ofInt64 i)) d) :
    Ends time cursor good bad := by
  obtain ⟨b, u, hb, hblank, hlist, hobject⟩ : ∃ b u, numeral i.toInt = b :: u ∧
      Byte.isBlank b = false ∧ b ≠ Byte.openBracket ∧ b ≠ Byte.openBrace := by
    rcases numeral_cases i.toInt with ⟨-, hnum⟩ | ⟨-, hnum, b, ds, hb, hdigit⟩
    · exact ⟨_, _, hnum, by decide, by decide, by decide⟩
    · refine ⟨b, ds, hnum.trans hb, not_blank_of_digit hdigit, ?_, ?_⟩ <;>
        (rintro rfl; cases hdigit)
  unfold time
  rw [ends_bind]
  refine ends_ahead?_of hw hblank (by rw [h, hb]; rfl) fun d hd => ?_
  split
  · next heq => exact absurd (Option.some.inj heq) hlist
  · next heq => exact absurd (Option.some.inj heq) hobject
  · rw [ends_bind, ends_lenient]
    show Ends (valueWith none none) d _ _
    refine ends_valueWith_numeral Blanks.nil (by rw [hd, hb]; rfl) ht fun e he => ?_
    exact hgood e he

theorem yields_time (i : Int64) :
    Yields time (numeral i.toInt) (timeOf? (Number.ofInt64 i)) :=
  fun _ _ _ hw ht h => ends_time_numeral hw h ht fun _ hd => ⟨rfl, hd⟩

theorem yields_subject {s : String} {q : List UInt8} (hq : SpellsString s q) :
    Yields subject q () := by
  intro c w t hw ht h
  unfold subject
  rw [ends_bind, ends_lenient]
  exact (yields_optional hq).ends hw ht h fun d hd => ⟨rfl, hd⟩

/-- Screening printed claims finds their expiry and no audience. -/
theorem run_reader_render (c : Claims) (room : Nat) :
    (reader (room + 1)).run (Utf8.encode c.toJson.render) =
      .ok ⟨timeOf? (Number.ofInt64 c.exp), false⟩ := by
  have hsub := yields_subject (spellsString_stringChars c.sub)
  have hrole := (spellsString_stringChars c.role.name).spells
  have hiat := spells_numeral c.iat.toInt
  have hyields : Yields (reader (room + 1)) (Utf8.encode c.toJson.render)
      ⟨timeOf? (Number.ofInt64 c.exp), false⟩ :=
    yields_record c.members_render (.cons (accepts_field rfl hsub) <|
      .cons (accepts_other rfl hrole) <| .cons (accepts_field rfl (yields_time c.exp)) <|
      .cons (accepts_other rfl hiat) <| .nil _) rfl
  exact hyields.run_alone

end Token.Screening

namespace Token.Header

/-! ## The header -/

theorem yields_optionalText {s : String} {q : List UInt8} (hq : SpellsString s q) :
    Yields optionalText q () := by
  intro c w t hw ht h
  unfold optionalText
  rw [ends_bind]
  exact (yields_optional hq).ends hw ht h fun d hd => ⟨rfl, hd⟩

/-- The header of issued tokens is read back. -/
theorem run_reader_render (room : Nat) :
    (reader (room + 1)).run (Utf8.encode issued.toJson.render) = .ok issued := by
  have htyp := yields_optionalText (spellsString_stringChars "JWT")
  have halg : Yields (Algorithm.reader room) _ .hs256 :=
    yields_choice (spellsString_stringChars "HS256") rfl
  have hmembers : Members [("typ", Utf8.encodeChars (stringChars "JWT")),
      ("alg", Utf8.encodeChars (stringChars "HS256"))] (Utf8.encode issued.toJson.render) := by
    have hprinted := members_chars [("typ", .string "JWT"), ("alg", .string "HS256")]
    rwa [printedMembers, List.map_cons, List.map_cons, List.map_nil, Value.chars, Value.chars]
      at hprinted
  have hyields : Yields (reader (room + 1)) (Utf8.encode issued.toJson.render) issued :=
    yields_record hmembers
      (.cons (accepts_field rfl htyp) <| .cons (accepts_field rfl halg) <| .nil _) rfl
  exact hyields.run_alone

end Token.Header

end Gatehouse
