/-!
# Dictionaries

Lists of entries in ascending order of their keys, one entry per key. Keys are compared by code
point, which is also the order of their UTF-8 bytes. The order makes a dictionary depend on what
was written last under each key and on nothing else of its history.
-/

namespace Gatehouse

/-- Entries under keys. Every dictionary is built from `[]` by `Dictionary.insert`. -/
abbrev Dictionary (α : Type) := List (String × α)

namespace Dictionary

variable {α : Type}

/-- The dictionary with `v` under `k`, in place of what stood there. -/
def insert (k : String) (v : α) : Dictionary α → Dictionary α
  | [] => [(k, v)]
  | (k', v') :: rest =>
    if k < k' then (k, v) :: (k', v') :: rest
    else if k = k' then (k, v) :: rest
    else (k', v') :: insert k v rest

/-- The dictionary of some entries. Of those with one key the last counts. -/
def ofList (entries : List (String × α)) : Dictionary α :=
  entries.foldl (fun d entry => d.insert entry.1 entry.2) []

/-- What stands under a key. -/
def find? : Dictionary α → String → Option α
  | [], _ => none
  | (k', v) :: rest, k => if k = k' then some v else find? rest k

theorem lookup_eq_find? (d : Dictionary α) (k : String) : List.lookup k d = d.find? k := by
  induction d with
  | nil => rfl
  | cons entry rest ih =>
    obtain ⟨k', v⟩ := entry
    by_cases hk : k = k'
    · subst hk
      rw [List.lookup_cons_self, find?, if_pos rfl]
    · have hne : (k == k') = false := beq_false_of_ne hk
      rw [List.lookup_cons, hne, find?, if_neg hk]
      exact ih

/-! ## What stands where after an entry -/

@[simp] theorem find?_insert_self (d : Dictionary α) (k : String) (v : α) :
    (d.insert k v).find? k = some v := by
  induction d with
  | nil => simp [insert, find?]
  | cons entry rest ih =>
    obtain ⟨k', v'⟩ := entry
    rw [insert]
    split
    · simp [find?]
    · split
      · simp [find?]
      · rename_i hne
        simpa [find?, hne] using ih

theorem find?_insert_of_ne (d : Dictionary α) {k k' : String} (v : α) (h : k' ≠ k) :
    (d.insert k v).find? k' = d.find? k' := by
  induction d with
  | nil => simp [insert, find?, h]
  | cons entry rest ih =>
    obtain ⟨j, w⟩ := entry
    rw [insert]
    split
    · simp [find?, h]
    · split
      · rename_i heq
        subst heq
        simp [find?, h]
      · simp only [find?, ih]

end Dictionary

end Gatehouse
