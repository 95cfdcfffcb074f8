import Gatehouse.Dictionary

/-!
# The order of dictionaries

A dictionary has its keys in ascending order (`Dictionary.Ascending`), which `insert` keeps. Entries
that are in order already make up a dictionary as they stand, and entries under other keys leave
alone what stands under a key. In order, a dictionary is what stands under each key and nothing else
(`Dictionary.Ascending.ext`), so that entries under two keys may be put in either way round.
-/

namespace Gatehouse.Dictionary

variable {α : Type}

/-- Every key comes before the next one. -/
def Ascending (d : Dictionary α) : Prop :=
  d.Pairwise fun a b => a.1 < b.1

theorem mem_of_find? {d : Dictionary α} {k : String} {v : α} (h : d.find? k = some v) :
    (k, v) ∈ d := by
  induction d with
  | nil => cases h
  | cons first rest ih =>
    obtain ⟨k', v'⟩ := first
    rw [find?] at h
    split at h
    · next heq =>
      cases h
      exact heq ▸ List.mem_cons_self
    · exact List.mem_cons_of_mem _ (ih h)

theorem mem_insert {d : Dictionary α} {k : String} {v : α} {entry : String × α}
    (h : entry ∈ d.insert k v) : entry = (k, v) ∨ entry ∈ d := by
  induction d with
  | nil => simpa [insert] using h
  | cons first rest ih =>
    obtain ⟨k', v'⟩ := first
    rw [insert] at h
    split at h
    · simpa using h
    · split at h
      · cases List.mem_cons.mp h with
        | inl h => exact .inl h
        | inr h => exact .inr (List.mem_cons_of_mem _ h)
      · cases List.mem_cons.mp h with
        | inl h => exact .inr (h ▸ List.mem_cons_self)
        | inr h => exact (ih h).imp_right (List.mem_cons_of_mem _)

theorem Ascending.insert {d : Dictionary α} (h : d.Ascending) (k : String) (v : α) :
    (d.insert k v).Ascending := by
  induction d with
  | nil => exact List.pairwise_singleton _ _
  | cons first rest ih =>
    obtain ⟨k', v'⟩ := first
    obtain ⟨hfirst, hrest⟩ := List.pairwise_cons.mp h
    rw [Dictionary.insert]
    split
    · next hlt =>
      refine List.pairwise_cons.mpr ⟨?_, h⟩
      intro entry hentry
      cases List.mem_cons.mp hentry with
      | inl heq => exact heq ▸ hlt
      | inr hmem => exact String.lt_trans hlt (hfirst entry hmem)
    · split
      · next heq =>
        subst heq
        exact List.pairwise_cons.mpr ⟨hfirst, hrest⟩
      · next hnlt hne =>
        refine List.pairwise_cons.mpr ⟨?_, ih hrest⟩
        intro entry hentry
        cases mem_insert hentry with
        | inl heq =>
          rw [heq]
          exact ((Std.lt_trichotomy k k').resolve_left hnlt).resolve_left hne
        | inr hmem => exact hfirst entry hmem

/-- A key above all others goes to the end. -/
theorem insert_of_last {d : Dictionary α} {k : String} (h : ∀ entry ∈ d, entry.1 < k) (v : α) :
    d.insert k v = d ++ [(k, v)] := by
  induction d with
  | nil => rfl
  | cons first rest ih =>
    obtain ⟨k', v'⟩ := first
    have hlt : k' < k := h _ List.mem_cons_self
    have hne : k ≠ k' := fun heq => String.lt_irrefl k' (heq ▸ hlt)
    rw [insert, if_neg (String.lt_asymm hlt), if_neg hne,
      ih fun entry hentry => h entry (List.mem_cons_of_mem _ hentry), List.cons_append]

/-- Entries in order make up a dictionary as they stand, behind what comes before them. -/
theorem foldl_insert_of_ascending {d entries : Dictionary α} (h : Ascending (d ++ entries)) :
    entries.foldl (fun d entry => d.insert entry.1 entry.2) d = d ++ entries := by
  induction entries generalizing d with
  | nil => exact (List.append_nil d).symm
  | cons entry entries ih =>
    obtain ⟨-, -, hbefore⟩ := List.pairwise_append.mp h
    have hlast : ∀ x ∈ d, x.1 < entry.1 := fun x hx => hbefore x hx entry List.mem_cons_self
    have hrest : Ascending (d ++ [entry] ++ entries) := by
      rw [List.append_assoc]
      exact h
    rw [List.foldl_cons, insert_of_last hlast, ih hrest, List.append_assoc]
    rfl

theorem ofList_of_ascending {entries : Dictionary α} (h : entries.Ascending) :
    ofList entries = entries :=
  foldl_insert_of_ascending (d := []) h

/-- Entries under other keys make no difference to what stands under a key. -/
theorem find?_foldl_insert_of_ne {k : String} (d : Dictionary α) {entries : List (String × α)}
    (h : ∀ entry ∈ entries, entry.1 ≠ k) :
    (entries.foldl (fun d entry => d.insert entry.1 entry.2) d).find? k = d.find? k := by
  induction entries generalizing d with
  | nil => rfl
  | cons entry entries ih =>
    rw [List.foldl_cons, ih _ fun e he => h e (List.mem_cons_of_mem _ he)]
    exact find?_insert_of_ne d entry.2 (Ne.symm (h entry List.mem_cons_self))

/-! ## What stands under the keys -/

namespace Ascending

variable {d d' : Dictionary α}

theorem find?_of_mem (h : d.Ascending) {k : String} {v : α} (hmem : (k, v) ∈ d) :
    d.find? k = some v := by
  induction d with
  | nil => cases hmem
  | cons first rest ih =>
    obtain ⟨hfirst, hrest⟩ := List.pairwise_cons.mp h
    rw [find?]
    cases List.mem_cons.mp hmem with
    | inl heq =>
      cases heq
      exact if_pos rfl
    | inr hmem =>
      have hlt : first.1 < k := hfirst _ hmem
      rw [if_neg (String.ne_of_lt hlt).symm, ih hrest hmem]

theorem nodup_keys (h : d.Ascending) : (d.map (·.1)).Nodup := by
  rw [List.Nodup, List.pairwise_map]
  exact h.imp String.ne_of_lt

/-- The first key is the least one of either dictionary. -/
theorem first_le {k k' : String} {v v' : α} (h : Ascending ((k, v) :: d))
    (hfind : find? ((k', v') :: d') k' = find? ((k, v) :: d) k') : ¬ k' < k := by
  intro hlt
  rw [find?, if_pos rfl] at hfind
  obtain heq | hmem := List.mem_cons.mp (mem_of_find? hfind.symm)
  · exact String.lt_irrefl k ((Prod.mk.inj heq).1 ▸ hlt)
  · exact String.lt_asymm hlt ((List.pairwise_cons.mp h).1 _ hmem)

/-- Behind the first key that key is not found again. -/
theorem find?_rest {k : String} {v : α} (h : Ascending ((k, v) :: d)) : d.find? k = none := by
  cases hfind : d.find? k with
  | none => rfl
  | some w =>
    exact absurd ((List.pairwise_cons.mp h).1 _ (mem_of_find? hfind)) (String.lt_irrefl k)

/-- Dictionaries with the same under every key are the same. -/
theorem ext (hd : d.Ascending) (hd' : d'.Ascending) (h : ∀ k, d.find? k = d'.find? k) : d = d' := by
  induction d generalizing d' with
  | nil =>
    cases d' with
    | nil => rfl
    | cons first' rest' =>
      have hfirst := h first'.1
      rw [find?, find?, if_pos rfl] at hfirst
      cases hfirst
  | cons first rest ih =>
    obtain ⟨k, v⟩ := first
    cases d' with
    | nil =>
      have hfirst := h k
      rw [find?, find?, if_pos rfl] at hfirst
      cases hfirst
    | cons first' rest' =>
      obtain ⟨k', v'⟩ := first'
      obtain rfl : k = k' :=
        ((Std.lt_trichotomy k k').resolve_left (hd'.first_le (h k))).resolve_right
          (hd.first_le (h k').symm)
      have hvalue := h k
      rw [find?, find?, if_pos rfl, if_pos rfl] at hvalue
      cases hvalue
      have hrest : ∀ j, find? rest j = find? rest' j := by
        intro j
        by_cases hj : j = k
        · rw [hj, hd.find?_rest, hd'.find?_rest]
        · have hfind := h j
          rwa [find?, find?, if_neg hj, if_neg hj] at hfind
      rw [ih (List.pairwise_cons.mp hd).2 (List.pairwise_cons.mp hd').2 hrest]

theorem insert_comm (h : d.Ascending) {k k' : String} (hne : k ≠ k') (v v' : α) :
    (d.insert k v).insert k' v' = (d.insert k' v').insert k v := by
  refine ext ((h.insert k v).insert k' v') ((h.insert k' v').insert k v) fun j => ?_
  by_cases hj : j = k
  · subst hj
    rw [find?_insert_of_ne _ _ hne, find?_insert_self, find?_insert_self]
  · by_cases hj' : j = k'
    · subst hj'
      rw [find?_insert_self, find?_insert_of_ne _ _ hj, find?_insert_self]
    · rw [find?_insert_of_ne _ _ hj', find?_insert_of_ne _ _ hj, find?_insert_of_ne _ _ hj,
        find?_insert_of_ne _ _ hj']

end Ascending

end Gatehouse.Dictionary
