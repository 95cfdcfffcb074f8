import Gatehouse.Text.Blank

/-!
# Trimming

A text is `Tight` if it starts and ends with a character that is no white space. Every text is white
space only, or is tight but for the white space around it (`Text.blank_or_tight`), and trimming
gives just what is tight (`Text.Tight.trimChars_append`).
-/

namespace Gatehouse.Text

theorem dropWhile_isBlank_append {w : List Char} (hw : ∀ c ∈ w, isBlank c = true) {c : Char}
    (hc : isBlank c = false) (cs : List Char) : (w ++ c :: cs).dropWhile isBlank = c :: cs := by
  rw [List.dropWhile_append_of_pos hw, List.dropWhile_cons_of_neg (by rw [hc]; decide)]

/-- A text that starts and ends with a character that is no white space. -/
structure Tight (cs : List Char) : Prop where
  head : ∃ c rest, cs = c :: rest ∧ isBlank c = false
  last : ∃ init d, cs = init ++ [d] ∧ isBlank d = false

namespace Tight

variable {cs : List Char}

theorem ne_nil (h : Tight cs) : cs ≠ [] := by
  obtain ⟨c, rest, rfl, -⟩ := h.head
  exact List.cons_ne_nil c rest

theorem of_no_blank (hne : cs ≠ []) (h : ∀ c ∈ cs, isBlank c = false) : Tight cs := by
  refine ⟨?_, _, _, (List.dropLast_concat_getLast hne).symm, h _ (List.getLast_mem hne)⟩
  obtain ⟨c, rest, rfl⟩ := List.exists_cons_of_ne_nil hne
  exact ⟨c, rest, rfl, h c List.mem_cons_self⟩

/-- No end of what is tight is white space only. -/
theorem not_blank_of_append {a b : List Char} (h : Tight (a ++ b)) (hne : b ≠ []) :
    ¬ ∀ c ∈ b, isBlank c = true := by
  obtain ⟨init, d, hlast, hd⟩ := h.last
  rw [← List.dropLast_concat_getLast hne, ← List.append_assoc] at hlast
  obtain rfl := List.singleton_inj.mp (List.append_inj' hlast rfl).2
  intro hall
  rw [hall _ (List.getLast_mem hne)] at hd
  cases hd

/-- Trimming takes off the white space around what is tight. -/
theorem trimChars_append (h : Tight cs) {w v : List Char} (hw : ∀ c ∈ w, isBlank c = true)
    (hv : ∀ c ∈ v, isBlank c = true) : trimChars (w ++ (cs ++ v)) = cs := by
  obtain ⟨c, rest, hhead, hc⟩ := h.head
  obtain ⟨init, d, hlast, hd⟩ := h.last
  have hfront : (w ++ (cs ++ v)).dropWhile isBlank = cs ++ v := by
    rw [hhead, List.cons_append]
    exact dropWhile_isBlank_append hw hc _
  rw [trimChars, hfront, List.reverse_append, hlast, List.reverse_append, List.reverse_singleton,
    List.singleton_append,
    dropWhile_isBlank_append (fun x hx => hv x (List.mem_reverse.mp hx)) hd,
    List.reverse_cons, List.reverse_reverse]

theorem trimChars_eq (h : Tight cs) : trimChars cs = cs := by
  have htrim := h.trimChars_append (w := []) (v := []) nofun nofun
  rwa [List.nil_append, List.append_nil] at htrim

end Tight

/-- A text is white space only, or is tight but for the white space around it. -/
theorem blank_or_tight (cs : List Char) : (∀ c ∈ cs, isBlank c = true) ∨
    ∃ w core w', cs = w ++ (core ++ w') ∧ (∀ c ∈ w, isBlank c = true) ∧
      (∀ c ∈ w', isBlank c = true) ∧ Tight core := by
  induction cs with
  | nil => exact .inl nofun
  | cons c cs ih =>
    cases hc : isBlank c with
    | true =>
      rcases ih with hblank | ⟨w, core, w', rfl, hw, hw', hcore⟩
      · exact .inl (List.forall_mem_cons.mpr ⟨hc, hblank⟩)
      · exact .inr ⟨c :: w, core, w', rfl, List.forall_mem_cons.mpr ⟨hc, hw⟩, hw', hcore⟩
    | false =>
      rcases ih with hblank | ⟨w, core, w', rfl, -, hw', hcore⟩
      · exact .inr ⟨[], [c], cs, rfl, nofun, hblank, ⟨c, [], rfl, hc⟩, ⟨[], c, rfl, hc⟩⟩
      · -- the white space in front of what was tight is inside now
        obtain ⟨init, d, rfl, hd⟩ := hcore.last
        refine .inr ⟨[], c :: (w ++ (init ++ [d])), w', by simp, nofun, hw', ⟨c, _, rfl, hc⟩,
          ⟨c :: (w ++ init), d, by simp, hd⟩⟩

theorem trimChars_of_blank {cs : List Char} (h : ∀ c ∈ cs, isBlank c = true) :
    trimChars cs = [] := by
  have hdrop : cs.dropWhile isBlank = [] := by
    rw [← List.append_nil cs, List.dropWhile_append_of_pos h, List.dropWhile_nil]
  rw [trimChars, hdrop]
  rfl

end Gatehouse.Text
