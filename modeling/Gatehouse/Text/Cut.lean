/-!
# Cutting at a character

A text is cut at the first or at the last place where a character stands; the character itself is
in neither part. `cutFirst?_append` and `cutLast?_append` say where the cut falls.
-/

namespace Gatehouse.Text

/-- What stands before and behind the first `sep`. -/
def cutFirst? (sep : Char) : List Char → Option (List Char × List Char)
  | [] => none
  | c :: cs =>
    if c = sep then some ([], cs)
    else (cutFirst? sep cs).map fun p => (c :: p.1, p.2)

/-- What stands before and behind the last `sep`. -/
def cutLast? (sep : Char) : List Char → Option (List Char × List Char)
  | [] => none
  | c :: cs =>
    match cutLast? sep cs with
    | some (a, b) => some (c :: a, b)
    | none => if c = sep then some ([], cs) else none

theorem cutFirst?_of_not_mem {sep : Char} {cs : List Char} (h : sep ∉ cs) :
    cutFirst? sep cs = none := by
  induction cs with
  | nil => rfl
  | cons c cs ih =>
    obtain ⟨hne, hmem⟩ := List.ne_and_not_mem_of_not_mem_cons h
    simp [cutFirst?, Ne.symm hne, ih hmem]

theorem cutFirst?_append {sep : Char} {a : List Char} (h : sep ∉ a) (b : List Char) :
    cutFirst? sep (a ++ sep :: b) = some (a, b) := by
  induction a with
  | nil => simp [cutFirst?]
  | cons c a ih =>
    obtain ⟨hne, hmem⟩ := List.ne_and_not_mem_of_not_mem_cons h
    simp [cutFirst?, Ne.symm hne, ih hmem]

theorem cutLast?_of_not_mem {sep : Char} {cs : List Char} (h : sep ∉ cs) :
    cutLast? sep cs = none := by
  induction cs with
  | nil => rfl
  | cons c cs ih =>
    obtain ⟨hne, hmem⟩ := List.ne_and_not_mem_of_not_mem_cons h
    simp [cutLast?, Ne.symm hne, ih hmem]

theorem cutLast?_append {sep : Char} (a : List Char) {b : List Char} (h : sep ∉ b) :
    cutLast? sep (a ++ sep :: b) = some (a, b) := by
  induction a with
  | nil => simp [cutLast?, cutLast?_of_not_mem h]
  | cons c a ih => simp [cutLast?, ih]

end Gatehouse.Text
