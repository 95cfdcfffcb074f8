import Gatehouse.NewUser
import Gatehouse.Proofs.Json.Records
import Gatehouse.Proofs.Json.Unambiguous
import Mathlib.Logic.ExistsUnique

/-!
# Two readers of new users

A user to be created is read off the value of a text, or from the text as a record. Where no column
has two members in the text, both make the same of an object (`NewUser.readers_agree`): the last
member with a key is then the only one, and the others, which the record passes over, are not asked
for in the value either. Only behind the marker do they differ, since its one member is no column of
the record, while the value is that of the text in its string.
-/

namespace Gatehouse.NewUser

open Json Json.Reader

variable {room : Nat} {ms : List (String × List UInt8)}

/-! ## The record -/

def slots (room : Nat) : Slots (member room) where
  fields :=
    [⟨"username", value room, Partial.username, fun x p => { p with username := x },
        fun _ => rfl, fun _ _ => rfl⟩,
      ⟨"email", value room, Partial.email, fun x p => { p with email := x }, fun _ => rfl,
        fun _ _ => rfl⟩]
  unique := by simp
  apart := by simp
  ext := by
    rintro ⟨⟩ ⟨⟩ h
    simpa using h
  other := by
    intro k p h
    simp only [List.forall_mem_cons] at h
    obtain ⟨husername, hemail, -⟩ := h
    unfold member
    split
    · exact absurd rfl husername
    · exact absurd rfl hemail
    · rfl

theorem yields_reader {u : List UInt8} {username email : Option Value} (hms : Members ms u)
    (husername : Fills (value room) none (textsOf "username" ms) username)
    (hemail : Fills (value room) none (textsOf "email" ms) email) :
    Yields (reader (room + 1)) u ⟨username.getD .null, email.getD .null⟩ := by
  refine (slots room).yields_record ⟨username, email⟩ hms ?_ rfl
  simp only [slots, List.forall_mem_cons]
  exact ⟨husername, hemail, List.forall_mem_nil _⟩

/-- Without columns among its members a text is read as a user without columns. -/
theorem yields_reader_of_none {u : List UInt8} (hms : Members ms u)
    (husername : textsOf "username" ms = []) (hemail : textsOf "email" ms = []) :
    Yields (reader (room + 1)) u ⟨.null, .null⟩ := by
  have hnone : Fills (value room) none [] none := .already none
  have hyields := yields_reader hms (husername ▸ hnone) (hemail ▸ hnone)
  exact hyields

/-! ## The value -/

/-- What stands under a key is what the record has there, if the text has the key at most once. -/
theorem fills_of_gathers {d : Dictionary Value} {key : String} (h : Gathers room ms [] d)
    (hone : (textsOf key ms).length ≤ 1) :
    Fills (value room) none (textsOf key ms) (d.find? key) := by
  have hfind := h.find?_eq key
  match htexts : textsOf key ms, hone with
  | [], _ =>
    rw [htexts] at hfind
    rw [show d.find? key = none from hfind]
    exact .already none
  | [v], _ =>
    rw [htexts] at hfind
    obtain ⟨p, hreads, hp⟩ := hfind
    rw [hp]
    exact .ahead hreads.yields

theorem objectText_of_parse {s : String} {d : Dictionary Value} (h : parse s = .ok (.object d)) :
    ∃ ms, ObjectText s ms := by
  obtain ⟨w, v, r, hs, hw, hr, -, -, hfounded⟩ := read_of_parse h
  cases hfounded with
  | other hne => exact absurd rfl (hne d)
  | members hms => exact ⟨_, w, v, r, hs, hw, hr, hms⟩
  | embedded hms => exact ⟨_, w, v, r, hs, hw, hr, hms⟩

/-- The record takes the same from a text as the value has. Behind the marker it takes nothing. -/
theorem run_reader_of_parse {s : String} {d : Dictionary Value} (h : parse s = .ok (.object d))
    (hs : ObjectText s ms) (husername : (textsOf "username" ms).length ≤ 1)
    (hemail : (textsOf "email" ms).length ≤ 1) :
    ∃ u, (reader maxDepth).run (Utf8.encode s) = .ok u ∧
      (ms.map (·.1) ≠ [embeddedKey] → ofJson (.object d) = .ok u) ∧
      ∀ q, ms = [(embeddedKey, q)] →
        u = ⟨.null, .null⟩ ∧ ∃ t, SpellsString t q ∧ parse t = .ok (.object d) := by
  obtain ⟨w, v, r, heq, hw, hr, -, -, hfounded⟩ := read_of_parse h
  rw [heq]
  cases hfounded with
  | other hne => exact absurd rfl (hne d)
  | members hms hkey hgathers =>
    obtain rfl := hs.unique ⟨w, v, r, heq, hw, hr, hms⟩
    have hyields := yields_reader hms (fills_of_gathers hgathers husername)
      (fills_of_gathers hgathers hemail)
    refine ⟨_, hyields.run hw hr, fun _ => ofJson_object d, ?_⟩
    rintro q rfl
    exact absurd rfl (hkey _ rfl)
  | embedded hms hq hparse =>
    obtain rfl := hs.unique ⟨w, v, r, heq, hw, hr, hms⟩
    have hyields : Yields (reader maxDepth) v ⟨.null, .null⟩ :=
      yields_reader_of_none hms (by simp [textsOf, embeddedKey]) (by simp [textsOf, embeddedKey])
    refine ⟨_, hyields.run hw hr, fun hne => absurd rfl hne, ?_⟩
    rintro q ⟨⟩
    exact ⟨rfl, _, hq, hparse⟩

theorem ofJson_toJson (u : NewUser) : ofJson u.toJson = .ok u := by
  unfold toJson
  rw [ofJson_object]
  rfl

/-- The order of the columns makes no difference. -/
theorem ofJson_ordered (u : NewUser) :
    ofJson (.ordered [("username", u.username), ("email", u.email)]) = .ok u := by
  unfold Value.ordered
  rw [ofJson_object]
  simp only [Dictionary.ofList, List.foldl_cons, List.foldl_nil]
  rw [Dictionary.find?_insert_of_ne _ _ (by decide), Dictionary.find?_insert_self,
    Dictionary.find?_insert_self]
  rfl

theorem ofJson_eq_error_iff (v : Value) :
    (∃ e, ofJson v = .error e) ↔ ∀ members, v ≠ .object members := by
  constructor
  · rintro ⟨e, h⟩ members rfl
    cases h
  · intro h
    cases v with
    | object members => exact absurd rfl (h members)
    | _ => exact ⟨_, rfl⟩

/-- A text that is parsed as an object has its members in one way. If neither column is the key of
two of them, the record is read from the text and is the user that the value describes, unless the
one key is the marker: then the record has no column, while the value is that of the embedded text.
A user that is written is described by its value again, and every object describes a user, but no
other value does. -/
theorem readers_agree :
    (∀ s d, parse s = .ok (.object d) → ∃! ms, ObjectText s ms) ∧
    (∀ s d ms, parse s = .ok (.object d) → ObjectText s ms →
      (textsOf "username" ms).length ≤ 1 → (textsOf "email" ms).length ≤ 1 →
      ∃ u, (reader maxDepth).run (Utf8.encode s) = .ok u ∧
        (ms.map (·.1) ≠ [embeddedKey] → ofJson (.object d) = .ok u) ∧
        ∀ q, ms = [(embeddedKey, q)] →
          u = ⟨.null, .null⟩ ∧ ∃ t, SpellsString t q ∧ parse t = .ok (.object d)) ∧
    (∀ u : NewUser, ofJson u.toJson = .ok u ∧
      ofJson (.ordered [("username", u.username), ("email", u.email)]) = .ok u ∧
      u.params = [u.username, u.email]) ∧
    ∀ v, (∃ e, ofJson v = .error e) ↔ ∀ members, v ≠ .object members := by
  refine ⟨fun s d h => ?_, fun s d ms => run_reader_of_parse,
    fun u => ⟨ofJson_toJson u, ofJson_ordered u, rfl⟩, ofJson_eq_error_iff⟩
  obtain ⟨ms, hms⟩ := objectText_of_parse h
  exact ⟨ms, hms, fun ms' hms' => hms'.unique hms⟩

/-- Columns between two members with one key, and a column whose value has the key of the other. -/
theorem readers_agree_beside_repeated_key :
    let username : Value := .object [("email", .null)]
    let ms : List (String × Value) :=
      [("a", .null), ("username", username), ("email", .string "x"), ("a", .string "y")]
    let d : Dictionary Value := [("a", .string "y"), ("email", .string "x"), ("username", username)]
    parse (Value.object ms).render = .ok (.object d) ∧
      (reader maxDepth).run (Utf8.encode (Value.object ms).render) = .ok ⟨username, .string "x"⟩ ∧
      ofJson (.object d) = .ok ⟨username, .string "x"⟩ := by
  intro username ms d
  have hnull : Reads 0 (Utf8.encodeChars Value.null.chars) .null :=
    reads_word .null fun _ _ => rfl
  have husername : Reads 1 (Utf8.encodeChars username.chars) username :=
    reads_printed (by decide) (List.forall_mem_singleton.mpr hnull)
  have hordered : Value.ordered ms = .object d := by
    simp only [Value.ordered, ms, d, Dictionary.ofList, List.foldl_cons, List.foldl_nil,
      Dictionary.insert, String.reduceLT, String.reduceEq, reduceIte]
  have hparse : parse (Value.object ms).render = .ok (.object d) := by
    have hreads : Reads 2 (Utf8.encodeChars (Value.object ms).chars) (.ordered ms) := by
      refine reads_printed (by decide) ?_
      simp only [ms, List.forall_mem_cons]
      exact ⟨hnull.mono (Nat.zero_le 1), husername, reads_stringChars "x", reads_stringChars "y",
        List.forall_mem_nil _⟩
    rw [hordered] at hreads
    exact (hreads.mono (by decide)).parse Blanks.nil Blanks.nil
      (by rw [Value.encode_render, List.append_nil]; rfl)
  obtain ⟨-, hagree, -⟩ := readers_agree
  obtain ⟨u, hread, hsame, -⟩ := hagree _ d _ hparse (members_chars ms).objectText
    (by simp [ms, printedMembers, textsOf]) (by simp [ms, printedMembers, textsOf])
  have hu : u = ⟨username, .string "x"⟩ := by
    have hvalue := hsame (by simp [ms, printedMembers])
    rw [ofJson_object] at hvalue
    exact (Except.ok.inj hvalue).symm
  exact ⟨hparse, hu ▸ hread, rfl⟩

/-- The one member of this text is under the marker. The record passes over it, and the value has
the column of the embedded text. -/
theorem readers_differ_behind_marker :
    let s := "\x7b\"$serde_json::private::RawValue\":\"\x7b\\\"username\\\":\\\"x\\\"\x7d\"\x7d"
    let d : Dictionary Value := [("username", .string "x")]
    parse s = .ok (.object d) ∧
      (∃ ms, ObjectText s ms ∧ textsOf "username" ms = [] ∧ textsOf "email" ms = []) ∧
      (reader maxDepth).run (Utf8.encode s) = .ok ⟨.null, .null⟩ ∧
      ofJson (.object d) = .ok ⟨.string "x", .null⟩ ∧
      ¬ ∃ u, (reader maxDepth).run (Utf8.encode s) = .ok u ∧ ofJson (.object d) = .ok u := by
  intro s d
  let marked : List (String × Value) := [(embeddedKey, .string (Value.object d).render)]
  have hs : s = (Value.object marked).render := by decide +kernel
  have hparse : parse s = .ok (.object d) := by
    rw [hs]
    exact parse_of_embedded (members_chars marked) (spellsString_stringChars _)
      (parse_of_members (by decide) (members_chars d) (spellsString_stringChars "x"))
  have hms : Members (printedMembers marked) (Utf8.encode s) := by
    rw [hs]
    exact members_chars marked
  have husername : textsOf "username" (printedMembers marked) = [] := by
    simp [marked, printedMembers, textsOf, embeddedKey]
  have hemail : textsOf "email" (printedMembers marked) = [] := by
    simp [marked, printedMembers, textsOf, embeddedKey]
  have hyields : Yields (reader maxDepth) (Utf8.encode s) ⟨.null, .null⟩ :=
    yields_reader_of_none hms husername hemail
  have hread : (reader maxDepth).run (Utf8.encode s) = .ok ⟨.null, .null⟩ := hyields.run_alone
  refine ⟨hparse, ⟨_, hms.objectText, husername, hemail⟩, hread, rfl, ?_⟩
  rintro ⟨u, hu, hvalue⟩
  rw [hread] at hu
  cases hu
  cases hvalue

end Gatehouse.NewUser
