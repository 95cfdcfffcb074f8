import Gatehouse.Route
import Gatehouse.Proofs.Text.Spelling

/-!
# Which methods reach a route

A method and a path are on their way to a route exactly if the table has a row of the method in
capitals, the path and the route (`Route.resolve_eq_some_iff_mem`), since no two rows have both in
common. What upper case turns into `GET` is `GET` in any case, and what it turns into `POST` is
`POST` in any case, also with the long s for the S or with a ligature for the last two letters
(`Route.upper_eq_get_iff`, `Route.upper_eq_post_iff`). From this follows for each route which
methods and paths reach it (`Route.reached_by_spellings`).
-/

namespace Gatehouse.Route

open Text

/-- The methods that upper case takes for `POST`. -/
def SpellsPost (method : String) : Prop :=
  ∃ p o tail, method.toList = p :: o :: tail ∧ p ∈ ['p', 'P'] ∧ o ∈ ['o', 'O'] ∧
    ((∃ s t, tail = [s, t] ∧ s ∈ ['s', 'S', '\u017F'] ∧ t ∈ ['t', 'T']) ∨
      tail = ['\uFB05'] ∨ tail = ['\uFB06'])

/-- A row of the table holds for a method and a path. -/
def Leads (method path : String) (row : String × String × Route) : Prop :=
  row.1 = upper method ∧ row.2.1 = path

instance (method path : String) (row : String × String × Route) :
    Decidable (Leads method path row) :=
  inferInstanceAs (Decidable (_ ∧ _))

/-! ## The table -/

theorem table_apart : table.Pairwise fun row row' =>
    ∀ method path, ¬ (Leads method path row ∧ Leads method path row') := by
  have hkeys : table.Pairwise fun row row' => ¬ (row.1 = row'.1 ∧ row.2.1 = row'.2.1) := by decide
  refine hkeys.imp fun hkey method path h => hkey ?_
  exact ⟨h.1.1.trans h.2.1.symm, h.1.2.trans h.2.2.symm⟩

theorem resolve_eq_some_iff_mem {method path : String} {r : Route} :
    resolve method path = some r ↔ (upper method, path, r) ∈ table := by
  constructor
  · intro h
    obtain ⟨row, hfind, rfl⟩ := Option.map_eq_some_iff.mp h
    have hrow := List.find?_some hfind
    simp only [Bool.and_eq_true, beq_iff_eq] at hrow
    rw [← hrow.1, ← hrow.2]
    exact List.mem_of_find?_eq_some hfind
  · intro h
    simp only [table, List.mem_cons, Prod.mk.injEq, List.not_mem_nil, or_false] at h
    obtain ⟨hm, rfl, rfl⟩ | ⟨hm, rfl, rfl⟩ | ⟨hm, rfl, rfl⟩ := h <;> simp [resolve, table, hm]

theorem resolve_eq_some_iff_leads {method path : String} {r : Route} :
    resolve method path = some r ↔ ∃ row ∈ table, Leads method path row ∧ row.2.2 = r := by
  rw [resolve_eq_some_iff_mem]
  constructor
  · intro h
    exact ⟨_, h, ⟨rfl, rfl⟩, rfl⟩
  · rintro ⟨row, hrow, ⟨hmethod, hpath⟩, rfl⟩
    rwa [← hmethod, ← hpath]

theorem count_leading_le_one (method path : String) :
    (table.filter fun row => Leads method path row).length ≤ 1 := by
  have hapart := table_apart.filter fun row => decide (Leads method path row)
  have hleads : ∀ row ∈ table.filter fun row => decide (Leads method path row),
      Leads method path row := by
    intro row hrow
    simpa using (List.mem_filter.mp hrow).2
  match h : table.filter fun row => decide (Leads method path row) with
  | [] | [_] => simp
  | row :: row' :: _ =>
    rw [h] at hapart hleads
    simp only [List.forall_mem_cons] at hleads
    exact absurd ⟨hleads.1, hleads.2.1⟩ (List.rel_of_pairwise_cons hapart (by simp) method path)

/-! ## Methods -/

theorem upper_eq_get_iff {method : String} : upper method = "GET" ↔ SameLetters method "GET" := by
  have hstrays : ∀ e ∈ raisedStrays, ¬ e.2 <:+: "GET".toList := by decide
  rw [upper_eq_iff_spells (by decide), SameLetters]
  exact spells_iff_sameLetter fun e he _ => hstrays e he

/-- The last letters of `POST` are two characters or one ligature. -/
theorem spells_st_iff {cs : List Char} : Spells raisedStrays cs ['S', 'T'] ↔
    (∃ s t, cs = [s, t] ∧ s ∈ ['s', 'S', '\u017F'] ∧ t ∈ ['t', 'T']) ∨
      cs = ['\uFB05'] ∨ cs = ['\uFB06'] := by
  have hnil {cs : List Char} : Spells raisedStrays cs [] ↔ cs = [] := spells_nil_iff (by decide)
  have ht {cs : List Char} : Spells raisedStrays cs ['T'] ↔ ∃ t, cs = [t] ∧ t ∈ ['t', 'T'] := by
    rw [spells_cons_iff_of_capital (by decide) (by decide)]
    simp [hnil]
  have hletter {c : Char} : SameLetter c 'S' ↔ c = 'S' ∨ c = 's' :=
    sameLetter_iff_of_capital (by decide)
  have hstrays : ∀ e ∈ raisedStrays, e.2 <+: ['S', 'T'] →
      e = ('\u017F', ['S']) ∨ e = ('\uFB05', ['S', 'T']) ∨ e = ('\uFB06', ['S', 'T']) := by decide
  constructor
  · intro h
    obtain ⟨s, cs, rfl, ⟨hs, hrest⟩ | ⟨letters, ds, hs, hword, hrest⟩⟩ := spells_cons_iff.mp h
    · obtain ⟨t, rfl, ht⟩ := ht.mp hrest
      exact .inl ⟨s, t, rfl, by rcases hletter.mp hs with rfl | rfl <;> decide, ht⟩
    · rcases hstrays _ hs ⟨ds, hword⟩ with heq | heq | heq <;> cases heq
      · obtain rfl : ds = ['T'] := List.append_cancel_left hword
        obtain ⟨t, rfl, ht⟩ := ht.mp hrest
        exact .inl ⟨_, t, rfl, by decide, ht⟩
      · obtain rfl : ds = [] := List.append_right_eq_self.mp hword
        exact .inr (.inl (by rw [hnil.mp hrest]))
      · obtain rfl : ds = [] := List.append_right_eq_self.mp hword
        exact .inr (.inr (by rw [hnil.mp hrest]))
  · rintro (⟨s, t, rfl, hs, htail⟩ | rfl | rfl)
    · have hrest := ht.mpr ⟨t, rfl, htail⟩
      simp only [List.mem_cons, List.not_mem_nil, or_false] at hs
      obtain rfl | rfl | rfl := hs
      · exact .letter (hletter.mpr (.inr rfl)) hrest
      · exact .letter (.refl 'S') hrest
      · exact .stray (show ('\u017F', ['S']) ∈ raisedStrays by decide) hrest
    · exact .stray (show ('\uFB05', ['S', 'T']) ∈ raisedStrays by decide) .nil
    · exact .stray (show ('\uFB06', ['S', 'T']) ∈ raisedStrays by decide) .nil

theorem upper_eq_post_iff {method : String} : upper method = "POST" ↔ SpellsPost method := by
  have htoList : "POST".toList = ['P', 'O', 'S', 'T'] := by decide
  rw [upper_eq_iff_spells (by decide), htoList,
    spells_cons_iff_of_capital (by decide) (by decide)]
  simp only [spells_cons_iff_of_capital (show IsCapital 'O' by decide)
    (show ∀ e ∈ raisedStrays, e.2.head?.any (· ≠ 'O') by decide), spells_st_iff]
  constructor
  · rintro ⟨p, _, hmethod, hp, o, tail, rfl, ho, htail⟩
    exact ⟨p, o, tail, hmethod, hp, ho, htail⟩
  · rintro ⟨p, o, tail, hmethod, hp, ho, htail⟩
    exact ⟨p, _, hmethod, hp, o, tail, rfl, ho, htail⟩

/-! ## Main statement -/

/-- A method and a path reach the health route or the user route exactly if the path is its own and
the method is `GET` in any case, and the route of a new user exactly if the path is the user's and
the method is `POST` as upper case has it; all others reach nothing. So a method in ASCII reaches a
route exactly if the path and, but for case, the method are those of the route's row. No two rows
hold for one method and path, and what they reach is the route of the row that holds. -/
theorem reached_by_spellings :
    (∀ method path,
      (resolve method path = some health ↔ path = "/api/health" ∧ SameLetters method "GET") ∧
      (resolve method path = some getUser ↔ path = "/api/user" ∧ SameLetters method "GET") ∧
      (resolve method path = some createUser ↔ path = "/api/user" ∧ SpellsPost method) ∧
      (resolve method path = none ↔
        ¬ (path = "/api/health" ∧ SameLetters method "GET") ∧
        ¬ (path = "/api/user" ∧ SameLetters method "GET") ∧
        ¬ (path = "/api/user" ∧ SpellsPost method))) ∧
    (∀ method path r, IsAscii method.toList →
      (resolve method path = some r ↔
        ∃ row ∈ table, SameLetters method row.1 ∧ path = row.2.1 ∧ r = row.2.2)) ∧
    (table.Pairwise fun row row' =>
      ∀ method path, ¬ (Leads method path row ∧ Leads method path row')) ∧
    ∀ method path, (table.filter fun row => Leads method path row).length ≤ 1 ∧
      ∀ r, resolve method path = some r ↔
        ∃ row ∈ table, Leads method path row ∧ row.2.2 = r := by
  refine ⟨fun method path => ?_, fun method path r hascii => ?_, table_apart,
    fun method path => ⟨count_leading_le_one method path, fun r => resolve_eq_some_iff_leads⟩⟩
  · have hhealth : resolve method path = some health ↔
        path = "/api/health" ∧ SameLetters method "GET" := by
      simp [resolve_eq_some_iff_mem, table, upper_eq_get_iff, and_comm]
    have huser : resolve method path = some getUser ↔
        path = "/api/user" ∧ SameLetters method "GET" := by
      simp [resolve_eq_some_iff_mem, table, upper_eq_get_iff, and_comm]
    have hcreate : resolve method path = some createUser ↔
        path = "/api/user" ∧ SpellsPost method := by
      simp [resolve_eq_some_iff_mem, table, upper_eq_post_iff, and_comm]
    refine ⟨hhealth, huser, hcreate, ?_⟩
    rw [← hhealth, ← huser, ← hcreate]
    cases resolve method path with
    | none => simp
    | some r => cases r <;> simp
  · have hmethods : ∀ row ∈ table, Settled Char.toUpper row.1.toList := by decide
    rw [resolve_eq_some_iff_mem]
    constructor
    · intro hrow
      exact ⟨_, hrow, (upper_eq_iff_of_ascii (hmethods _ hrow) hascii).mp rfl, rfl, rfl⟩
    · rintro ⟨row, hrow, hletters, rfl, rfl⟩
      rwa [(upper_eq_iff_of_ascii (hmethods row hrow) hascii).mpr hletters]

/-- A method in ASCII in which two letters are capitals. -/
theorem reached_by_spellings_mixed_case :
    IsAscii "pOsT".toList ∧ resolve "pOsT" "/api/user" = some createUser := by
  have hascii : IsAscii "pOsT".toList := by decide
  refine ⟨hascii, (reached_by_spellings.2.1 _ _ _ hascii).mpr ?_⟩
  exact ⟨("POST", "/api/user", createUser), by decide, by decide, rfl, rfl⟩

/-- A ligature stands for the last two letters. The sharp s becomes two capitals as well, but not
these. -/
example : resolve "po\uFB06" "/api/user" = some createUser ∧
    resolve "Po\u00DFt" "/api/user" = none := by
  decide +kernel

end Gatehouse.Route
