import Gatehouse.Proofs.Json.ObjectText
import Gatehouse.Token.Key
import Mathlib.Data.List.Nodup

/-!
# What a key is read from

The reader of a key takes the text of an object, and it is for the members to decide
(`ends_reader`). They are those of a key exactly if no field that any key may have comes twice or
holds what it may not, and if all the fields of a key of some type come once and hold what they may
(`IsKey`, `checkMembers_eq_ok_iff`).
-/

namespace Gatehouse.Json.Reader

/-! ## Objects with all their members -/

section Members

variable {α : Type} {c : Cursor} {room : Nat} {item : Reader α}
  (hitem : ∀ d, Ends item d
    (fun _ e => ∃ w v, Blanks w ∧ Spells .value v ∧ d.rest = w ++ (v ++ e.rest)) fun _ => True)

include hitem

theorem memberLaw_appendMember :
    MemberLaw (fun texts ms ms' => ∃ added : List (String × α), ms' = ms ++ added ∧
      added.map (·.1) = texts.map (·.1)) (appendMember item) := by
  intro k ms c
  unfold appendMember
  apply Ends.bind ends_colon
  rintro _ d ⟨w, hw, hd⟩
  apply Ends.bind (hitem d)
  rintro a e ⟨w', v, hw', hv, he⟩
  refine ⟨w, w', v, hw, hw', hv, by rw [hd, he], ?_⟩
  rintro texts _ ⟨added, rfl, hkeys⟩
  refine ⟨(k, a) :: added, by rw [List.append_assoc]; rfl, ?_⟩
  rw [List.map_cons, List.map_cons, hkeys]

/-- The members that are given have the keys of those in the text. -/
theorem ends_membersOf {expected : String} :
    Ends (membersOf room expected item) c
      (fun ms d => ∃ w t texts, Blanks w ∧ Members texts t ∧ ms.map (·.1) = texts.map (·.1) ∧
        c.rest = w ++ (t ++ d.rest))
      fun _ => True := by
  unfold membersOf
  rw [ends_placed, ends_bind]
  refine ends_ahead?_intro fun w d hw hd _ => ?_
  split
  · trivial
  · next h =>
    split
    · trivial
    · rw [ends_bind, ends_skip]
      unfold object
      rw [ends_enclosed]
      have hmembers := ends_members (c := d.step) (fun ms => ⟨[], (List.append_nil ms).symm, rfl⟩)
        (memberLaw_appendMember hitem) []
      refine hmembers.mono ?_ fun _ _ => ends_trivial _
      intro ms e he
      apply ends_closeObject.imp
      rintro _ e' ⟨w', hw', he'⟩
      obtain ⟨texts, t, htexts, hrest, added, rfl, hkeys⟩ := he w' _ hw' he'
      exact ⟨w, _, texts, hw, htexts, hkeys, by rw [hd, Cursor.rest_of_head? h, hrest]; rfl⟩
  · exact ends_mismatch

end Members

/-- Without room for nesting it makes no difference what the marker means. -/
theorem ends_plainValue_flat {c : Cursor} :
    Ends (plainValue 0) c
      (fun _ d => ∃ w v, Blanks w ∧ Spells .value v ∧ c.rest = w ++ (v ++ d.rest))
      fun _ => True := by
  have hmarker : plainValue 0 = valueWithin (some (parseNested 0)) 0 := rfl
  rw [hmarker]
  apply (takes_value (parseNested_stable 0) 0 c).imp
  rintro _ d ⟨w, v, hw, hv, hd, -⟩
  exact ⟨w, v, hw, hv, hd⟩

theorem ends_unmerged (room : Nat) (c : Cursor) :
    Ends (unmerged room) c
      (fun _ d => ∃ w v, Blanks w ∧ Spells .value v ∧ c.rest = w ++ (v ++ d.rest))
      fun _ => True := by
  induction room generalizing c with
  | zero => exact ends_plainValue_flat
  | succ room ih =>
    rw [unmerged, ends_bind]
    refine ends_ahead?_intro fun w d hw hd _ => ?_
    have hblanks : ∀ {e : Cursor}, (∃ w v, Blanks w ∧ Spells .value v ∧
        d.rest = w ++ (v ++ e.rest)) →
        ∃ w v, Blanks w ∧ Spells .value v ∧ c.rest = w ++ (v ++ e.rest) := by
      rintro e ⟨w', v, hw', hv, he⟩
      exact ⟨w ++ w', v, hw.append hw', hv, by rw [hd, he, List.append_assoc]⟩
    split
    · apply Ends.bind (ends_listOf ih)
      exact fun _ _ h => hblanks h
    · apply Ends.bind (ends_membersOf ih)
      rintro _ e ⟨w', t, texts, hw', ht, -, he⟩
      exact hblanks ⟨w', t, hw', ht.spells, he⟩
    · exact ends_plainValue_flat.imp fun _ _ h => hblanks h

end Gatehouse.Json.Reader

namespace Gatehouse.Token.Key

open Json Json.Reader

variable {ms : List (String × Value)} {v : Value} {field : Field}

/-! ## Fields -/

theorem valuesOf_cons_self (key : String) (v : Value) (ms : List (String × Value)) :
    valuesOf key ((key, v) :: ms) = v :: valuesOf key ms := by
  simp [valuesOf]

theorem valuesOf_cons_of_ne {key name : String} (h : name ≠ key) (v : Value)
    (ms : List (String × Value)) : valuesOf key ((name, v) :: ms) = valuesOf key ms := by
  simp [valuesOf, h]

/-- Members give a field one value, and it may hold it. -/
def Field.Filled (ms : List (String × Value)) (field : Field) : Prop :=
  ∃ v, valuesOf field.name ms = [v] ∧ field.check v = .ok ()

theorem isFilled_iff : field.isFilled ms = true ↔ field.Filled ms := by
  unfold Field.isFilled Field.Filled
  split
  · next v hv =>
    rw [hv]
    cases hcheck : field.check v <;> simp [hcheck, Except.isOk, Except.toBool]
  · next hne => simpa using fun v hv => absurd hv (hne v)

/-- Members leave a field out, or fill it if it has not been seen before. -/
def Field.Allowed (seen : List String) (ms : List (String × Value)) (field : Field) : Prop :=
  valuesOf field.name ms = [] ∨ field.name ∉ seen ∧ field.Filled ms

theorem allowed_cons_self {seen : List String} :
    field.Allowed seen ((field.name, v) :: ms) ↔
      field.name ∉ seen ∧ field.check v = .ok () ∧ field.Allowed (field.name :: seen) ms := by
  unfold Field.Allowed Field.Filled
  rw [valuesOf_cons_self]
  constructor
  · rintro (hnil | ⟨hseen, v', hv, hcheck⟩)
    · cases hnil
    · obtain ⟨rfl, hnil⟩ := List.cons.inj hv
      exact ⟨hseen, hcheck, .inl hnil⟩
  · rintro ⟨hseen, hcheck, hnil | ⟨hnew, -⟩⟩
    · exact .inr ⟨hseen, v, by rw [hnil], hcheck⟩
    · exact absurd List.mem_cons_self hnew

theorem allowed_cons_of_ne {seen : List String} {name : String} (h : name ≠ field.name) :
    field.Allowed seen ((name, v) :: ms) ↔ field.Allowed seen ms := by
  unfold Field.Allowed Field.Filled
  rw [valuesOf_cons_of_ne h]

theorem allowed_seen_cons_of_ne {seen : List String} {name : String} (h : name ≠ field.name) :
    field.Allowed (name :: seen) ms ↔ field.Allowed seen ms := by
  unfold Field.Allowed
  rw [List.mem_cons, or_iff_right h.symm]

/-! ## Members -/

/-- No two of the fields that any key may have share a name. -/
theorem commonFields_unique {f g : Field} (hf : f ∈ commonFields) (hg : g ∈ commonFields)
    (h : f.name = g.name) : f = g := by
  have hnodup : (commonFields.map Field.name).Nodup := by decide
  exact List.inj_on_of_nodup_map hnodup hf hg h

theorem checkCommon_cons_of_field {seen : List String} {name : String}
    (h : commonFields.find? (·.name = name) = some field) :
    checkCommon seen ((name, v) :: ms) = .ok () ↔
      name ∉ seen ∧ field.check v = .ok () ∧ checkCommon (name :: seen) ms = .ok () := by
  rw [checkCommon, h]
  by_cases hseen : name ∈ seen
  · simp [hseen]
  · cases hcheck : field.check v <;> simp [hseen, hcheck, bind, Except.bind]

/-- The fields that any key may have are checked one by one. -/
theorem checkCommon_eq_ok_iff {seen : List String} :
    checkCommon seen ms = .ok () ↔ ∀ f ∈ commonFields, f.Allowed seen ms := by
  induction ms generalizing seen with
  | nil => simp [checkCommon, Field.Allowed, valuesOf]
  | cons m ms ih =>
    obtain ⟨name, v⟩ := m
    cases hfind : commonFields.find? (·.name = name) with
    | none =>
      have hskip : checkCommon seen ((name, v) :: ms) = checkCommon seen ms := by
        rw [checkCommon, hfind]
      rw [hskip, ih]
      refine forall₂_congr fun f hf => (allowed_cons_of_ne ?_).symm
      rintro rfl
      simpa using List.find?_eq_none.mp hfind f hf
    | some field =>
      have hfield : field ∈ commonFields := List.mem_of_find?_eq_some hfind
      obtain rfl : field.name = name := by simpa using List.find?_some hfind
      have hother : ∀ f ∈ commonFields, f ≠ field → field.name ≠ f.name :=
        fun f hf hne hname => hne (commonFields_unique hf hfield hname.symm)
      rw [checkCommon_cons_of_field hfind, ih]
      constructor
      · rintro ⟨hseen, hcheck, hrest⟩ f hf
        by_cases heq : f = field
        · subst heq
          exact allowed_cons_self.mpr ⟨hseen, hcheck, hrest f hf⟩
        · have hname := hother f hf heq
          exact (allowed_cons_of_ne hname).mpr ((allowed_seen_cons_of_ne hname).mp (hrest f hf))
      · intro h
        obtain ⟨hseen, hcheck, hself⟩ := allowed_cons_self.mp (h field hfield)
        refine ⟨hseen, hcheck, fun f hf => ?_⟩
        by_cases heq : f = field
        · subst heq
          exact hself
        · have hname := hother f hf heq
          exact (allowed_seen_cons_of_ne hname).mpr ((allowed_cons_of_ne hname).mp (h f hf))

/-- Members are those of a key: each field that any key may have is left out or filled, and all the
fields of a key of some type are filled. -/
structure IsKey (ms : List (String × Value)) : Prop where
  common : ∀ f ∈ commonFields, valuesOf f.name ms = [] ∨ f.Filled ms
  form : ∃ fields ∈ forms, ∀ f ∈ fields, f.Filled ms

theorem checkMembers_eq_ok_iff : checkMembers ms = .ok () ↔ IsKey ms := by
  have hcommon : checkCommon [] ms = .ok () ↔
      ∀ f ∈ commonFields, valuesOf f.name ms = [] ∨ f.Filled ms := by
    simp [checkCommon_eq_ok_iff, Field.Allowed]
  have hform : (forms.any fun fields => fields.all (Field.isFilled ms)) = true ↔
      ∃ fields ∈ forms, ∀ f ∈ fields, f.Filled ms := by
    simp [isFilled_iff]
  have hkey : IsKey ms ↔ checkCommon [] ms = .ok () ∧
      (forms.any fun fields => fields.all (Field.isFilled ms)) = true := by
    rw [hcommon, hform]
    exact ⟨fun h => ⟨h.common, h.form⟩, fun h => ⟨h.1, h.2⟩⟩
  rw [hkey]
  unfold checkMembers
  cases checkCommon [] ms with
  | error fault => simp [bind, Except.bind]
  | ok _ =>
    simp only [true_and]
    show (if _ then _ else _) = _ ↔ _
    split
    · next h => exact iff_of_true rfl h
    · next h => exact iff_of_false nofun h

/-- A secret key has its value, whatever stands beside it. An algorithm may stand as the key of an
object, but in a field of a type nothing is nothing but null. -/
example :
    checkMembers [("k", .string ""), ("x", .null), ("kty", .string "oct")] = .ok () ∧
    checkMembers [("alg", .object [("RSA-OAEP", .object [])]), ("kty", .object [("oct", .null)]),
      ("k", .string "")] = .ok () ∧
    checkMembers [("kty", .object [("oct", .object [])]), ("k", .string "")] =
      .error (.noForm "AlgorithmParameters") ∧
    checkMembers [("kid", .null), ("kid", .null)] = .error (.duplicateField "kid") :=
  ⟨rfl, rfl, rfl, rfl⟩

/-! ## Keys -/

/-- What is read as a key is an object with members of a key. -/
theorem ends_reader {room : Nat} {c : Cursor} :
    Ends (reader room) c
      (fun _ d => ∃ w t texts ms, Blanks w ∧ Members texts t ∧ ms.map (·.1) = texts.map (·.1) ∧
        IsKey ms ∧ c.rest = w ++ (t ++ d.rest))
      fun _ => True := by
  unfold reader
  rw [ends_placed]
  apply Ends.bind (ends_membersOf (ends_unmerged _))
  rintro ms d ⟨w, t, texts, hw, ht, hkeys, hd⟩
  split
  · next hcheck =>
    exact ⟨w, t, texts, ms, hw, ht, hkeys, checkMembers_eq_ok_iff.mp hcheck, hd⟩
  · trivial

end Gatehouse.Token.Key
