import Gatehouse.Proofs.Json.ObjectText
import Gatehouse.Proofs.Json.Printed

/-!
# Values over several lines

What is printed over several lines is JSON as well (`spells_indentedChars`): the lines are blanks,
and they stand only where blanks may. An object whose members can be read is read with them in the
order of their keys, whether it is printed on one line (`Reader.reads_printed`) or on several
(`Reader.reads_indented`).
-/

namespace Gatehouse.Json

theorem blanks_newline (level : Nat) : Blanks (Utf8.encodeChars (newline level)) := by
  intro b hb
  obtain ⟨c, hc, hbc⟩ := List.mem_flatMap.mp hb
  have hchar : c = '\n' ∨ c = ' ' := by
    obtain rfl | hc := List.mem_cons.mp hc
    · exact .inl rfl
    · exact .inr (List.eq_of_mem_replicate hc)
  obtain rfl | rfl := hchar
  · rw [List.mem_singleton.mp hbc]
    rfl
  · rw [List.mem_singleton.mp hbc]
    rfl

/-! ## Lists -/

section Lists

variable {level : Nat}

theorem exists_indentedItems (outer : Nat) {v : Value} {vs : List Value}
    (h : ∀ x ∈ vs, Spells .value (Utf8.encodeChars (x.indentedChars level))) :
    ∃ u, Spells .items u ∧
      Utf8.encodeChars (indentedItems level (v :: vs) ++ (newline outer ++ [']'])) =
        Utf8.encodeChars (v.indentedChars level) ++ u := by
  induction vs generalizing v with
  | nil =>
    refine ⟨_, .closeList (blanks_newline outer), ?_⟩
    rw [indentedItems, Utf8.encodeChars_append, Utf8.encodeChars_append]
    rfl
  | cons w vs ih =>
    obtain ⟨u, hu, heq⟩ := ih (v := w) fun x hx => h x (List.mem_cons_of_mem _ hx)
    refine ⟨_, .item Blanks.nil (blanks_newline level) (h w List.mem_cons_self) hu, ?_⟩
    rw [indentedItems, List.append_assoc, List.append_assoc, Utf8.encodeChars_append,
      Utf8.encodeChars_append, heq]
    rfl

theorem spells_indentedArray {vs : List Value}
    (h : ∀ x ∈ vs, Spells .value (Utf8.encodeChars (x.indentedChars (level + 1)))) :
    Spells .value (Utf8.encodeChars ((Value.array vs).indentedChars level)) := by
  cases vs with
  | nil => exact .noItems Blanks.nil
  | cons v vs =>
    obtain ⟨u, hu, heq⟩ := exists_indentedItems level (v := v)
      fun x hx => h x (List.mem_cons_of_mem _ hx)
    rw [Value.indentedChars, List.append_assoc, List.append_assoc, Utf8.encodeChars_append, heq]
    exact .list (blanks_newline (level + 1)) (h v List.mem_cons_self) hu

end Lists

/-! ## Objects -/

/-- The members of an object by the texts of their values at a level. -/
def indentedTexts (level : Nat) (ms : List (String × Value)) : List (String × List UInt8) :=
  ms.map fun m => (m.1, Utf8.encodeChars (m.2.indentedChars level))

section Objects

variable {level : Nat}

theorem exists_indentedTrail (outer : Nat) {k : String} {v : Value}
    {ms : List (String × Value)}
    (h : ∀ m ∈ ms, Spells .value (Utf8.encodeChars (m.2.indentedChars level))) :
    ∃ u, Trail (indentedTexts level ms) u ∧
      Utf8.encodeChars (indentedMembers level ((k, v) :: ms) ++ (newline outer ++ ['\x7d'])) =
        (Utf8.encodeChars (stringChars k) ++
          Byte.colon :: 0x20 :: Utf8.encodeChars (v.indentedChars level)) ++ u := by
  induction ms generalizing k v with
  | nil =>
    refine ⟨_, .close (blanks_newline outer), ?_⟩
    rw [indentedMembers, Utf8.encodeChars_append, Utf8.encodeChars_append, Utf8.encodeChars_append,
      Utf8.encodeChars_append, List.append_assoc (Utf8.encodeChars (stringChars k))]
    rfl
  | cons m ms ih =>
    obtain ⟨k', v'⟩ := m
    obtain ⟨u, hu, heq⟩ := ih (k := k') (v := v') fun m hm => h m (List.mem_cons_of_mem _ hm)
    refine ⟨_, .more Blanks.nil (blanks_newline level)
      (member_spaced k' (h _ List.mem_cons_self)) hu, ?_⟩
    rw [indentedMembers]
    simp only [List.append_assoc, List.cons_append, Utf8.encodeChars_append,
      Utf8.encodeChars_cons] at heq ⊢
    rw [heq]
    rfl

theorem members_of_spells_indented {ms : List (String × Value)}
    (h : ∀ m ∈ ms, Spells .value (Utf8.encodeChars (m.2.indentedChars (level + 1)))) :
    Members (indentedTexts (level + 1) ms)
      (Utf8.encodeChars ((Value.object ms).indentedChars level)) := by
  cases ms with
  | nil => exact .none Blanks.nil
  | cons m ms =>
    obtain ⟨k, v⟩ := m
    obtain ⟨u, hu, heq⟩ := exists_indentedTrail level (k := k) (v := v)
      fun m hm => h m (List.mem_cons_of_mem _ hm)
    rw [Value.indentedChars, List.append_assoc, List.append_assoc, Utf8.encodeChars_append, heq]
    exact .some (blanks_newline (level + 1)) (member_spaced k (h _ List.mem_cons_self)) hu

end Objects

/-! ## Values -/

/-- Every value is written as a JSON value, at every level. -/
theorem spells_indentedChars (level : Nat) : (v : Value) →
    Spells .value (Utf8.encodeChars (v.indentedChars level))
  | .null => .null
  | .bool true => .true
  | .bool false => .false
  | .number n => by
    rw [Value.indentedChars]
    exact spells_numberChars n
  | .string s => by
    rw [Value.indentedChars]
    exact (spellsString_stringChars s).spells
  | .array vs => spells_indentedArray fun v _ => spells_indentedChars (level + 1) v
  | .object ms =>
    (members_of_spells_indented fun m _ => spells_indentedChars (level + 1) m.2).spells
termination_by v => v
decreasing_by
  · next h => exact Nat.lt_trans (List.sizeOf_lt_of_mem h) (by simp)
  · next h => exact sizeOf_lt_of_mem_members h

/-! ## Reading -/

namespace Reader

variable {room : Nat} {ms : List (String × Value)}

/-- Members that are read one after the other make a dictionary of what they are worth. -/
theorem gathers_of_reads (text : Value → List UInt8)
    (h : ∀ m ∈ ms, Reads room (text m.2) m.2) (d : Dictionary Value) :
    Gathers room (ms.map fun m => (m.1, text m.2)) d
      (ms.foldl (fun d m => d.insert m.1 m.2) d) := by
  induction ms generalizing d with
  | nil => exact .nil d
  | cons m ms ih =>
    exact .cons (h m List.mem_cons_self) (ih (fun x hx => h x (List.mem_cons_of_mem _ hx)) _)

/-- A text whose members can be read is read as the object of what they are worth. -/
theorem reads_ordered {u : List UInt8} (text : Value → List UInt8)
    (hms : Members (ms.map fun m => (m.1, text m.2)) u)
    (hkey : ∀ m ∈ ms.head?, m.1 ≠ embeddedKey) (h : ∀ m ∈ ms, Reads room (text m.2) m.2) :
    Reads (room + 1) u (.ordered ms) := by
  refine reads_members hms ?_ (gathers_of_reads text h [])
  cases ms with
  | nil => exact nofun
  | cons m ms =>
    rintro _ ⟨⟩
    exact hkey m rfl

theorem reads_printed (hkey : ∀ m ∈ ms.head?, m.1 ≠ embeddedKey)
    (h : ∀ m ∈ ms, Reads room (Utf8.encodeChars m.2.chars) m.2) :
    Reads (room + 1) (Utf8.encodeChars (Value.object ms).chars) (.ordered ms) :=
  reads_ordered (fun v => Utf8.encodeChars v.chars)
    (members_of_spells fun m _ => spells_chars m.2) hkey h

theorem reads_indented {level : Nat} (hkey : ∀ m ∈ ms.head?, m.1 ≠ embeddedKey)
    (h : ∀ m ∈ ms, Reads room (Utf8.encodeChars (m.2.indentedChars (level + 1))) m.2) :
    Reads (room + 1) (Utf8.encodeChars ((Value.object ms).indentedChars level)) (.ordered ms) :=
  reads_ordered (fun v => Utf8.encodeChars (v.indentedChars (level + 1)))
    (members_of_spells_indented fun m _ => spells_indentedChars (level + 1) m.2) hkey h

theorem reads_ofInt64 (i : Int64) :
    Reads room (Utf8.encodeChars (Number.ofInt64 i).chars) (.number (.ofInt64 i)) := by
  obtain ⟨-, u, hu, -⟩ | ⟨hneg, hi⟩ := ofInt64_cases i
  · rw [hu]
    exact reads_natural u
  · rw [hi]
    exact reads_negative (Int64.lt_iff_toInt_lt.mpr hneg)

theorem reads_stringChars (s : String) :
    Reads room (Utf8.encodeChars (stringChars s)) (.string s) :=
  reads_string (spellsString_stringChars s)

/-- A line feed may stand behind a text. -/
theorem parse_line {s : String} {v : Value} (h : Reads maxDepth (Utf8.encode s) v) :
    parse (s ++ "\n") = .ok v := by
  refine h.parse Blanks.nil (r := [0x0A]) (List.forall_mem_singleton.mpr rfl) ?_
  rw [Utf8.encode_append]
  rfl

end Reader

end Gatehouse.Json
