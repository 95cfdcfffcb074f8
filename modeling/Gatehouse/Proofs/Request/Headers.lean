import Gatehouse.Proofs.Dictionary
import Gatehouse.Proofs.Request.Bodies
import Gatehouse.Proofs.Text.AsciiCase

/-!
# Setting the headers of a request

A request is built by steps, each of which inserts a header or sets the body. What it has under a
name is the value of the last insertion under the same letters, and its headers are one entry for
each class of names that were inserted. Insertions under different letters may change places, and a
request is put together from what the insertions alone and the steps on the body alone make of it
(`Request.header_law`).
-/

namespace Gatehouse.Request

open Text

/-- A way to change a request. -/
inductive Step where
  /-- A header gets a value. -/
  | header (name value : String)
  /-- The body is set. -/
  | body (step : BodyStep)

namespace Step

/-- The request behind a step. -/
def apply (r : Request) : Step → Request
  | header name value => r.insertHeader name value
  | body step => step.apply r

/-- The name and the value of an insertion. -/
def insertion? : Step → Option (String × String)
  | header name value => some (name, value)
  | body _ => none

end Step

/-- A request that is built by some steps. -/
def built (method path : String) (steps : List Step) : Request :=
  steps.foldl Step.apply ⟨method, path, [], none, none⟩

/-- The names and values of the headers that some steps insert, in order. -/
def insertions (steps : List Step) : List (String × String) :=
  steps.filterMap Step.insertion?

/-- The last insertion under the letters of a name has some value. -/
def LastUnder (insertions : List (String × String)) (name value : String) : Prop :=
  ∃ before spelling after, insertions = before ++ (spelling, value) :: after ∧
    SameLetters spelling name ∧ ∀ i ∈ after, ¬ SameLetters i.1 name

variable {method path : String} {steps : List Step}

theorem built_append (steps steps' : List Step) :
    built method path (steps ++ steps') = steps'.foldl Step.apply (built method path steps) :=
  List.foldl_append

theorem built_concat (steps : List Step) (step : Step) :
    built method path (steps ++ [step]) = step.apply (built method path steps) :=
  built_append steps [step]

theorem insertions_concat (steps : List Step) (step : Step) :
    insertions (steps ++ [step]) = insertions steps ++ step.insertion?.toList := by
  unfold insertions
  rw [List.filterMap_append]
  cases h : step.insertion? <;> simp [h]

/-! ## One step -/

theorem headers_apply_body (r : Request) (step : BodyStep) :
    (step.apply r).headers = r.headers := by
  cases step with
  | text body => rfl
  | put body => rfl
  | bytes body =>
    show (r.withBodyBytes body).headers = r.headers
    unfold withBodyBytes
    split
    · rfl
    · split <;> rfl

/-- Headers and steps on the body do not meet. -/
theorem apply_withHeaders (r : Request) (headers : Dictionary String) (step : BodyStep) :
    step.apply { r with headers } = { step.apply r with headers } := by
  cases step with
  | text body => rfl
  | put body => rfl
  | bytes body =>
    show withBodyBytes { r with headers } body = { withBodyBytes r body with headers }
    unfold withBodyBytes
    split
    · rfl
    · split <;> rfl

theorem ascending_apply {r : Request} (h : r.headers.Ascending) (step : Step) :
    (step.apply r).headers.Ascending := by
  cases step with
  | header name value => exact h.insert _ value
  | body step =>
    show (step.apply r).headers.Ascending
    rwa [headers_apply_body]

/-- Insertions under different letters may change places. -/
theorem insertHeader_comm {r : Request} (hr : r.headers.Ascending) {name name' : String}
    (h : ¬ SameLetters name name') (value value' : String) :
    (r.insertHeader name value).insertHeader name' value' =
      (r.insertHeader name' value').insertHeader name value := by
  unfold insertHeader
  dsimp only
  rw [hr.insert_comm fun heq => h (asciiLower_eq_iff.mp heq)]

/-! ## Whole runs -/

theorem ascending_built (steps : List Step) : (built method path steps).headers.Ascending := by
  induction steps using List.reverseRecOn with
  | nil => exact .nil
  | append_singleton steps step ih =>
    rw [built_concat]
    exact ascending_apply ih step

section LastUnder

variable {is : List (String × String)} {name value : String}

theorem not_lastUnder_nil : ¬ LastUnder [] name value := by
  rintro ⟨before, _, after, h, -⟩
  simp at h

theorem lastUnder_concat_same {i : String × String} (h : SameLetters i.1 name) :
    LastUnder (is ++ [i]) name value ↔ value = i.2 := by
  constructor
  · rintro ⟨before, spelling, after, heq, -, hafter⟩
    obtain rfl | ⟨after, last, rfl⟩ := after.eq_nil_or_concat
    · rw [List.singleton_inj.mp (List.append_inj' heq rfl).2]
    · rw [List.concat_eq_append, ← List.cons_append, ← List.append_assoc] at heq
      have hlast := List.singleton_inj.mp (List.append_inj' heq rfl).2
      exact absurd h (hlast ▸ hafter last (by simp))
  · rintro rfl
    exact ⟨is, i.1, [], rfl, h, nofun⟩

theorem lastUnder_concat_other {i : String × String} (h : ¬ SameLetters i.1 name) :
    LastUnder (is ++ [i]) name value ↔ LastUnder is name value := by
  constructor
  · rintro ⟨before, spelling, after, heq, hname, hafter⟩
    obtain rfl | ⟨after, last, rfl⟩ := after.eq_nil_or_concat
    · have hlast := List.singleton_inj.mp (List.append_inj' heq rfl).2
      exact absurd (hlast ▸ hname) h
    · rw [List.concat_eq_append, ← List.cons_append, ← List.append_assoc] at heq
      exact ⟨before, spelling, after, (List.append_inj' heq rfl).1, hname,
        fun x hx => hafter x (by simp [hx])⟩
  · rintro ⟨before, spelling, after, rfl, hname, hafter⟩
    refine ⟨before, spelling, after ++ [i], by simp, hname, ?_⟩
    intro x hx
    obtain hx | hx := List.mem_append.mp hx
    · exact hafter x hx
    · exact List.mem_singleton.mp hx ▸ h

end LastUnder

/-- What stands under a name is what was inserted last under its letters. -/
theorem header?_built (steps : List Step) (name value : String) :
    (built method path steps).header? name = some value ↔
      LastUnder (insertions steps) name value := by
  induction steps using List.reverseRecOn with
  | nil => exact ⟨nofun, fun h => (not_lastUnder_nil h).elim⟩
  | append_singleton steps step ih =>
    rw [built_concat, insertions_concat]
    cases step with
    | header spelling value' =>
      show (insertHeader _ spelling value').header? name = _ ↔
        LastUnder (insertions steps ++ [(spelling, value')]) name value
      by_cases h : SameLetters spelling name
      · rw [header?_insertHeader, if_pos (asciiLower_eq_iff.mpr h), lastUnder_concat_same h,
          Option.some.injEq, eq_comm]
      · rw [header?_insertHeader, if_neg (mt asciiLower_eq_iff.mp h), ih,
          lastUnder_concat_other h]
    | body step =>
      show (step.apply _).header? name = _ ↔ LastUnder (insertions steps ++ []) name value
      rw [List.append_nil, ← ih]
      unfold header?
      rw [headers_apply_body]

/-- A header was inserted last under its name if it was inserted at all. -/
theorem exists_lastUnder {is : List (String × String)} {name : String} {i : String × String}
    (hi : i ∈ is) (h : SameLetters i.1 name) : ∃ value, LastUnder is name value := by
  induction is using List.reverseRecOn with
  | nil => cases hi
  | append_singleton is last ih =>
    by_cases hlast : SameLetters last.1 name
    · exact ⟨last.2, (lastUnder_concat_same hlast).mpr rfl⟩
    · obtain hi | hi := List.mem_append.mp hi
      · obtain ⟨value, hvalue⟩ := ih hi
        exact ⟨value, (lastUnder_concat_other hlast).mpr hvalue⟩
      · exact absurd (List.mem_singleton.mp hi ▸ h) hlast

theorem header?_built_eq_none (steps : List Step) (name : String) :
    (built method path steps).header? name = none ↔
      ∀ i ∈ insertions steps, ¬ SameLetters i.1 name := by
  rw [Option.eq_none_iff_forall_ne_some]
  constructor
  · intro h i hi hname
    obtain ⟨value, hvalue⟩ := exists_lastUnder hi hname
    exact h value ((header?_built steps name value).mpr hvalue)
  · intro h value hvalue
    obtain ⟨before, spelling, after, heq, hname, -⟩ := (header?_built steps name value).mp hvalue
    exact h (spelling, value) (by rw [heq]; simp) hname

/-! ## Entries -/

/-- Every entry stems from an insertion, with its name in small letters. -/
theorem exists_insertion {e : String × String} (h : e ∈ (built method path steps).headers) :
    ∃ i ∈ insertions steps, asciiLower i.1 = e.1 := by
  induction steps using List.reverseRecOn with
  | nil => cases h
  | append_singleton steps step ih =>
    rw [built_concat] at h
    rw [insertions_concat]
    cases step with
    | header spelling value =>
      obtain rfl | hmem := Dictionary.mem_insert h
      · exact ⟨(spelling, value), by simp [Step.insertion?], rfl⟩
      · obtain ⟨i, hi, hkey⟩ := ih hmem
        exact ⟨i, List.mem_append_left _ hi, hkey⟩
    | body step =>
      change e ∈ (step.apply _).headers at h
      rw [headers_apply_body] at h
      obtain ⟨i, hi, hkey⟩ := ih h
      exact ⟨i, List.mem_append_left _ hi, hkey⟩

theorem asciiLower_key {e : String × String} (h : e ∈ (built method path steps).headers) :
    asciiLower e.1 = e.1 := by
  obtain ⟨i, -, hkey⟩ := exists_insertion h
  rw [← hkey]
  exact asciiLower_eq_iff.mpr (sameLetters_asciiLower i.1)

/-- An entry under the letters of a name is under the name in small letters, with the value that
stands under the name. -/
theorem entry_of_mem {key value name : String}
    (hmem : (key, value) ∈ (built method path steps).headers) (h : SameLetters key name) :
    key = asciiLower name ∧ (built method path steps).header? name = some value := by
  have hkey : key = asciiLower name :=
    (asciiLower_key hmem).symm.trans (asciiLower_eq_iff.mpr h)
  refine ⟨hkey, ?_⟩
  unfold header?
  rw [← hkey]
  exact (ascending_built steps).find?_of_mem hmem

theorem existsUnique_entry {i : String × String} (hi : i ∈ insertions steps) :
    ∃! e, e ∈ (built method path steps).headers ∧ SameLetters e.1 i.1 := by
  obtain ⟨value, hvalue⟩ := exists_lastUnder hi (SameLetters.rfl (s := i.1))
  have hfind : (built method path steps).header? i.1 = some value :=
    (header?_built steps i.1 value).mpr hvalue
  refine ⟨(asciiLower i.1, value),
    ⟨Dictionary.mem_of_find? hfind, sameLetters_asciiLower i.1⟩, ?_⟩
  rintro ⟨key, value'⟩ ⟨hmem, hsame⟩
  obtain ⟨hkey, hvalue'⟩ := entry_of_mem hmem hsame
  exact Prod.ext hkey (Option.some.inj (hvalue'.symm.trans hfind))

/-! ## The two parts of a request -/

/-- The insertions among some steps. -/
def headerSteps (steps : List Step) : List Step :=
  steps.filter fun step => step.insertion?.isSome

/-- The steps on the body among some steps. -/
def bodySteps (steps : List Step) : List Step :=
  steps.filter fun step => step.insertion?.isNone

theorem built_eq_parts (steps : List Step) :
    built method path steps =
      { built method path (bodySteps steps) with
        headers := (built method path (headerSteps steps)).headers } := by
  induction steps using List.reverseRecOn with
  | nil => rfl
  | append_singleton steps step ih =>
    unfold headerSteps bodySteps at ih ⊢
    rw [built_concat, ih, List.filter_append, List.filter_append]
    cases step with
    | header name value =>
      have hheader : [Step.header name value].filter (fun step => step.insertion?.isSome) =
          [.header name value] := rfl
      have hbody : [Step.header name value].filter (fun step => step.insertion?.isNone) = [] := rfl
      rw [hheader, hbody, List.append_nil, built_concat]
      rfl
    | body step =>
      have hheader : [Step.body step].filter (fun step => step.insertion?.isSome) = [] := rfl
      have hbody : [Step.body step].filter (fun step => step.insertion?.isNone) =
          [.body step] := rfl
      rw [hheader, hbody, List.append_nil, built_concat]
      exact apply_withHeaders _ _ step

/-! ## Main statement -/

/-- A request has under each name what was inserted last under its letters, and nothing if nothing
was. Its headers are one entry for each class of names that were inserted, without capitals.
Insertions under different letters may change places, and neither insertions nor steps on the body
have a part in what the others make of the request. -/
theorem header_law (method path : String) (steps : List Step) :
    let r := built method path steps
    (∀ name value, r.header? name = some value ↔ LastUnder (insertions steps) name value) ∧
    (∀ name, r.header? name = none ↔ ∀ i ∈ insertions steps, ¬ SameLetters i.1 name) ∧
    (∀ name, SameLetters name "Content-Type" → r.contentType? = r.header? name) ∧
    ((r.headers.map (·.1)).Nodup ∧
      (∀ i ∈ insertions steps, ∃! e, e ∈ r.headers ∧ SameLetters e.1 i.1) ∧
      ∀ e ∈ r.headers, (∃ i ∈ insertions steps, SameLetters i.1 e.1) ∧
        ∀ c ∈ e.1.toList, ¬ IsCapital c) ∧
    (∀ name value name' value' more, ¬ SameLetters name name' →
      built method path (steps ++ .header name value :: .header name' value' :: more) =
        built method path (steps ++ .header name' value' :: .header name value :: more)) ∧
    r = { built method path (bodySteps steps) with
      headers := (built method path (headerSteps steps)).headers } ∧
    r.json = (built method path (bodySteps steps)).json := by
  intro r
  refine ⟨header?_built steps, header?_built_eq_none steps, ?_,
    ⟨(ascending_built steps).nodup_keys, fun i => existsUnique_entry, ?_⟩, ?_,
    built_eq_parts steps, ?_⟩
  · intro name hname
    have hlower : asciiLower "Content-Type" = asciiLower "content-type" := by decide +kernel
    unfold contentType? header?
    rw [asciiLower_eq_iff.mpr hname, hlower]
  · intro e he
    obtain ⟨i, hi, hkey⟩ := exists_insertion he
    refine ⟨⟨i, hi, asciiLower_eq_iff.mp (by rw [hkey, asciiLower_key he])⟩, fun c hc => ?_⟩
    rw [← hkey] at hc
    exact not_capital_of_mem_asciiLower hc
  · intro name value name' value' more h
    rw [built_append, built_append]
    exact congrArg (more.foldl Step.apply) (insertHeader_comm (ascending_built steps) h _ _)
  · show (built method path steps).json = _
    rw [built_eq_parts steps]
    rfl

/-- Two spellings of one name that surround a body, and a letter beyond ASCII in both cases. -/
theorem header_law_mixed_case :
    let steps := [.header "Content-Type" "a", .body (.text "x"), .header "CONTENT-type" "b",
      .header "É" "1", .header "é" "2"]
    let r := built "POST" "/" steps
    r.contentType? = some "b" ∧ r.header? "É" = some "1" ∧ r.header? "Accept" = none ∧
    (∃! e, e ∈ r.headers ∧ SameLetters e.1 "Content-Type") ∧
    built "POST" "/" (steps ++ [.header "É" "3", .header "é" "4"]) =
      built "POST" "/" (steps ++ [.header "é" "4", .header "É" "3"]) := by
  intro steps r
  obtain ⟨hlast, hnone, htype, ⟨-, hentry, -⟩, hswap, -⟩ := header_law "POST" "/" steps
  have hb : LastUnder (insertions steps) "content-TYPE" "b" :=
    ⟨[("Content-Type", "a")], "CONTENT-type", [("É", "1"), ("é", "2")], rfl, by decide +kernel,
      by decide +kernel⟩
  have hé : LastUnder (insertions steps) "É" "1" :=
    ⟨[("Content-Type", "a"), ("CONTENT-type", "b")], "É", [("é", "2")], rfl, by decide +kernel,
      by decide +kernel⟩
  refine ⟨?_, (hlast "É" "1").mpr hé, (hnone "Accept").mpr (by decide +kernel), ?_, ?_⟩
  · rw [htype "content-TYPE" (by decide +kernel), (hlast "content-TYPE" "b").mpr hb]
  · exact hentry ("Content-Type", "a") (by decide +kernel)
  · exact hswap "É" "3" "é" "4" [] (by decide +kernel)

end Gatehouse.Request
