import Gatehouse.Proofs.Json.ObjectText
import Gatehouse.Proofs.Json.Parts
import Gatehouse.Proofs.Json.Printed
import Gatehouse.Proofs.Text.Order

/-!
# Compact texts

`Compact` gives the texts of a value that have no blank between their parts and the keys of every
object in the order of their bytes. A value without doubles is printed as a compact text
(`compact_render`), and whatever compact text of a value is read, it is read as that value, unless
it is too deep or an object in it has the marker for its first key (`Compact.parse`).
-/

namespace Gatehouse.Json

/-- What a compact text is for: a value, or the items or members that follow an item or a member,
with the closing bracket. -/
inductive Part where
  | value (v : Value)
  | items (vs : List Value)
  | members (ms : List (String × Value))

/-- Each key comes before the next one by its bytes. -/
def KeysInOrder (ms : List (String × Value)) : Prop :=
  ms.Pairwise fun m m' => Utf8.encode m.1 < Utf8.encode m'.1

theorem keysInOrder_iff {ms : List (String × Value)} :
    KeysInOrder ms ↔ Dictionary.Ascending ms := by
  simp only [KeysInOrder, Dictionary.Ascending, Utf8.encode_lt_encode]

/-- A text without blanks is for a part of a value without doubles. -/
inductive Compact : Part → List UInt8 → Prop
  | null : Compact (.value .null) [0x6E, 0x75, 0x6C, 0x6C]
  | true : Compact (.value (.bool true)) [0x74, 0x72, 0x75, 0x65]
  | false : Compact (.value (.bool false)) [0x66, 0x61, 0x6C, 0x73, 0x65]
  | natural (u : UInt64) : Compact (.value (.number (.natural u))) (numeral u.toNat)
  | negative {i : Int64} (hi : i < 0) : Compact (.value (.number (.negative i))) (numeral i.toInt)
  | string {s : String} {q : List UInt8} (hq : SpellsString s q) : Compact (.value (.string s)) q
  | noItems : Compact (.value (.array [])) [Byte.openBracket, Byte.closeBracket]
  | list {v : Value} {vs : List Value} {t u : List UInt8} (hv : Compact (.value v) t)
      (hvs : Compact (.items vs) u) :
      Compact (.value (.array (v :: vs))) (Byte.openBracket :: (t ++ u))
  | noMembers : Compact (.value (.object [])) [Byte.openBrace, Byte.closeBrace]
  | object {k : String} {v : Value} {ms : List (String × Value)} {q t u : List UInt8}
      (hkeys : KeysInOrder ((k, v) :: ms)) (hq : SpellsString k q) (hv : Compact (.value v) t)
      (hms : Compact (.members ms) u) :
      Compact (.value (.object ((k, v) :: ms))) (Byte.openBrace :: (q ++ Byte.colon :: (t ++ u)))
  | closeList : Compact (.items []) [Byte.closeBracket]
  | item {v : Value} {vs : List Value} {t u : List UInt8} (hv : Compact (.value v) t)
      (hvs : Compact (.items vs) u) : Compact (.items (v :: vs)) (Byte.comma :: (t ++ u))
  | closeObject : Compact (.members []) [Byte.closeBrace]
  | member {k : String} {v : Value} {ms : List (String × Value)} {q t u : List UInt8}
      (hq : SpellsString k q) (hv : Compact (.value v) t) (hms : Compact (.members ms) u) :
      Compact (.members ((k, v) :: ms)) (Byte.comma :: (q ++ Byte.colon :: (t ++ u)))

/-! ## Printing -/

theorem compact_items {v : Value} {vs : List Value}
    (h : ∀ w ∈ vs, Compact (.value w) (Utf8.encodeChars w.chars)) :
    ∃ u, Compact (.items vs) u ∧
      Utf8.encodeChars (itemChars (v :: vs) ++ [']']) = Utf8.encodeChars v.chars ++ u := by
  induction vs generalizing v with
  | nil =>
    refine ⟨_, .closeList, ?_⟩
    rw [itemChars, Utf8.encodeChars_append]
    rfl
  | cons w vs ih =>
    obtain ⟨u, hu, heq⟩ := ih (v := w) fun x hx => h x (List.mem_cons_of_mem _ hx)
    refine ⟨_, .item (h w List.mem_cons_self) hu, ?_⟩
    rw [itemChars, List.append_assoc, Utf8.encodeChars_append, List.cons_append,
      Utf8.encodeChars_cons, heq]
    rfl

theorem compact_members {k : String} {v : Value} {ms : List (String × Value)}
    (h : ∀ m ∈ ms, Compact (.value m.2) (Utf8.encodeChars m.2.chars)) :
    ∃ u, Compact (.members ms) u ∧ Utf8.encodeChars (memberChars ((k, v) :: ms) ++ ['\x7d']) =
      Utf8.encodeChars (stringChars k) ++ Byte.colon :: (Utf8.encodeChars v.chars ++ u) := by
  induction ms generalizing k v with
  | nil =>
    refine ⟨_, .closeObject, ?_⟩
    rw [memberChars, Utf8.encodeChars_append, Utf8.encodeChars_append, List.append_assoc]
    rfl
  | cons m ms ih =>
    obtain ⟨k', v'⟩ := m
    obtain ⟨u, hu, heq⟩ := ih (k := k') (v := v') fun m hm => h m (List.mem_cons_of_mem _ hm)
    refine ⟨_, .member (spellsString_stringChars k') (h _ List.mem_cons_self) hu, ?_⟩
    rw [memberChars, List.append_assoc, Utf8.encodeChars_append, List.cons_append,
      Utf8.encodeChars_append, Utf8.encodeChars_cons, Utf8.encodeChars_cons, heq,
      List.append_assoc]
    rfl

theorem compact_chars {v : Value} (hproper : v.Proper) (hexact : v.Exact) :
    Compact (.value v) (Utf8.encodeChars v.chars) := by
  have h := hproper.and hexact
  clear hproper hexact
  induction h with
  | @intro v h _ ih =>
    cases v with
    | null => exact .null
    | bool b =>
      cases b with
      | true => exact .true
      | false => exact .false
    | number n =>
      cases n with
      | natural u => exact .natural u
      | negative i => exact .negative h.1
      | float x => exact h.2.elim
    | string s => exact .string (spellsString_stringChars s)
    | array vs =>
      cases vs with
      | nil => exact .noItems
      | cons v vs =>
        obtain ⟨u, hu, heq⟩ := compact_items (v := v) fun w hw => ih w (List.mem_cons_of_mem _ hw)
        have hlist := Compact.list (ih v List.mem_cons_self) hu
        rw [Value.chars, List.cons_append, Utf8.encodeChars_cons, heq]
        exact hlist
    | object ms =>
      cases ms with
      | nil => exact .noMembers
      | cons m ms =>
        obtain ⟨k, v⟩ := m
        have hparts : ∀ m ∈ (k, v) :: ms, Compact (.value m.2) (Utf8.encodeChars m.2.chars) :=
          fun m hm => ih m.2 (List.mem_map_of_mem hm)
        obtain ⟨u, hu, heq⟩ := compact_members (k := k) (v := v)
          fun m hm => hparts m (List.mem_cons_of_mem _ hm)
        rw [Value.chars, List.cons_append, Utf8.encodeChars_cons, heq]
        exact .object (keysInOrder_iff.mpr h.1) (spellsString_stringChars k)
          (hparts _ List.mem_cons_self) hu

/-- A value without doubles is printed as a compact text. -/
theorem compact_render {v : Value} (hproper : v.Proper) (hexact : v.Exact) :
    Compact (.value v) (Utf8.encode v.render) := by
  rw [Value.encode_render]
  exact compact_chars hproper hexact

/-! ## Reading -/

open Reader

/-- Some values can be read in some room. -/
def Readable (room : Nat) (vs : List Value) : Prop :=
  ∀ v ∈ vs, v.Within room ∧ v.Unmarked

theorem Readable.tail {room : Nat} {v : Value} {vs : List Value} (h : Readable room (v :: vs)) :
    Readable room vs :=
  fun w hw => h w (List.mem_cons_of_mem v hw)

theorem Readable.head {room : Nat} {v : Value} {vs : List Value} (h : Readable room (v :: vs)) :
    Readable room [v] := by
  intro w hw
  rw [List.mem_singleton.mp hw]
  exact h v List.mem_cons_self

/-- What is inside a list or an object can be read in the room that is left. -/
theorem Readable.parts {room : Nat} {v : Value} (h : Readable room [v])
    (hv : v.isContainer = true) : ∃ left, room = left + 1 ∧ Readable left v.parts := by
  obtain ⟨hwithin, hunmarked⟩ := h v List.mem_cons_self
  obtain ⟨left, rfl⟩ := hwithin.of_container hv
  exact ⟨left, rfl, fun w hw => ⟨hwithin.parts w hw, hunmarked.parts w hw⟩⟩

/-- What a text has to be for a part, for the part to be read from it. -/
def Part.ReadFrom : Part → List UInt8 → Prop
  | .value v, t => Spells .value t ∧ ∀ room, Readable room [v] → Reads room t v
  | .items vs, t => ∃ ts, Items ts t ∧ ∀ room, Readable room vs → ReadsAll room ts vs
  | .members ms, t => ∃ ts, Trail ts t ∧ ∀ room d, Readable room (ms.map (·.2)) →
      Gathers room ts d (ms.foldl (fun d m => d.insert m.1 m.2) d)

section Parts

variable {v : Value} {vs : List Value} {k : String} {ms : List (String × Value)}
  {q t u : List UInt8}

theorem readFrom_list (hv : (Part.value v).ReadFrom t) (hvs : (Part.items vs).ReadFrom u) :
    (Part.value (.array (v :: vs))).ReadFrom (Byte.openBracket :: (t ++ u)) := by
  obtain ⟨hspells, hreads⟩ := hv
  obtain ⟨ts, hitems, hall⟩ := hvs
  refine ⟨.list Blanks.nil hspells hitems.spells, ?_⟩
  intro room h
  obtain ⟨left, rfl, hparts⟩ := h.parts rfl
  exact reads_items Blanks.nil hspells hitems (hreads left hparts.head) (hall left hparts.tail)

theorem readFrom_item (hv : (Part.value v).ReadFrom t) (hvs : (Part.items vs).ReadFrom u) :
    (Part.items (v :: vs)).ReadFrom (Byte.comma :: (t ++ u)) := by
  obtain ⟨hspells, hreads⟩ := hv
  obtain ⟨ts, hitems, hall⟩ := hvs
  refine ⟨t :: ts, .more Blanks.nil Blanks.nil hspells hitems, ?_⟩
  intro room h
  exact .cons (hreads room h.head) (hall room h.tail)

/-- The marker is no first key, and in order the members are those that are gathered. -/
theorem readFrom_object (hkeys : KeysInOrder ((k, v) :: ms)) (hq : SpellsString k q)
    (hv : (Part.value v).ReadFrom t) (hms : (Part.members ms).ReadFrom u) :
    (Part.value (.object ((k, v) :: ms))).ReadFrom
      (Byte.openBrace :: (q ++ Byte.colon :: (t ++ u))) := by
  obtain ⟨hspells, hreads⟩ := hv
  obtain ⟨ts, htrail, hall⟩ := hms
  have hmember : Member k t (q ++ Byte.colon :: t) :=
    ⟨q, [], [], rfl, hq, Blanks.nil, Blanks.nil, hspells⟩
  have hmembers : Members ((k, t) :: ts) (Byte.openBrace :: (q ++ Byte.colon :: (t ++ u))) := by
    simpa using Members.some Blanks.nil hmember htrail
  refine ⟨hmembers.spells, ?_⟩
  intro room h
  have hkey : k ≠ embeddedKey := (h _ List.mem_cons_self).2.self (k, v) rfl
  obtain ⟨left, rfl, hparts⟩ := h.parts rfl
  have hgathers := hall left (Dictionary.insert k v []) hparts.tail
  have hordered : ms.foldl (fun d m => d.insert m.1 m.2) (Dictionary.insert k v []) =
      (k, v) :: ms := Dictionary.ofList_of_ascending (keysInOrder_iff.mp hkeys)
  rw [hordered] at hgathers
  apply reads_members hmembers
  · rintro m ⟨⟩
    exact hkey
  · exact .cons (hreads left hparts.head) hgathers

theorem readFrom_member (hq : SpellsString k q) (hv : (Part.value v).ReadFrom t)
    (hms : (Part.members ms).ReadFrom u) :
    (Part.members ((k, v) :: ms)).ReadFrom (Byte.comma :: (q ++ Byte.colon :: (t ++ u))) := by
  obtain ⟨hspells, hreads⟩ := hv
  obtain ⟨ts, htrail, hall⟩ := hms
  have hmember : Member k t (q ++ Byte.colon :: t) :=
    ⟨q, [], [], rfl, hq, Blanks.nil, Blanks.nil, hspells⟩
  refine ⟨(k, t) :: ts, by simpa using Trail.more Blanks.nil Blanks.nil hmember htrail, ?_⟩
  intro room d h
  exact .cons (hreads room h.head) (hall room _ h.tail)

end Parts

/-- Every part is read from its compact texts. -/
theorem Compact.readFrom {part : Part} {t : List UInt8} (h : Compact part t) :
    part.ReadFrom t := by
  induction h with
  | null => exact ⟨.null, fun _ _ => reads_word .null fun _ _ => rfl⟩
  | true => exact ⟨.true, fun _ _ => reads_word .true fun _ _ => rfl⟩
  | false => exact ⟨.false, fun _ _ => reads_word .false fun _ _ => rfl⟩
  | natural u => exact ⟨spells_numeral _, fun _ _ => reads_natural u⟩
  | negative hi => exact ⟨spells_numeral _, fun _ _ => reads_negative hi⟩
  | string hq => exact ⟨hq.spells, fun _ _ => reads_string hq⟩
  | noItems =>
    refine ⟨.noItems Blanks.nil, ?_⟩
    intro room h
    obtain ⟨left, rfl, -⟩ := h.parts rfl
    exact reads_noItems Blanks.nil
  | list _ _ ihv ihvs => exact readFrom_list ihv ihvs
  | noMembers =>
    refine ⟨.noMembers Blanks.nil, ?_⟩
    intro room h
    obtain ⟨left, rfl, -⟩ := h.parts rfl
    exact reads_members (.none Blanks.nil) nofun (.nil [])
  | object hkeys hq _ _ ihv ihms => exact readFrom_object hkeys hq ihv ihms
  | closeList => exact ⟨[], .close Blanks.nil, fun _ _ => .nil⟩
  | item _ _ ihv ihvs => exact readFrom_item ihv ihvs
  | closeObject => exact ⟨[], .close Blanks.nil, fun _ d _ => .nil d⟩
  | member hq _ _ ihv ihms => exact readFrom_member hq ihv ihms

/-- A compact text of a value that is not too deep and without the marker is read as the value. -/
theorem Compact.parse {v : Value} {s : String} (h : Compact (.value v) (Utf8.encode s))
    (hwithin : v.Within maxDepth) (hunmarked : v.Unmarked) : Json.parse s = .ok v := by
  have hreadable : Readable maxDepth [v] := by
    intro w hw
    rw [List.mem_singleton.mp hw]
    exact ⟨hwithin, hunmarked⟩
  exact (h.readFrom.2 maxDepth hreadable).parse Blanks.nil Blanks.nil (List.append_nil _).symm

end Gatehouse.Json
