import Gatehouse.Proofs.Json.Skipping

/-!
# Numbers by their text

What is read as a number has the form of one, and the number is a matter of its text: the same text
gives the same number wherever else it stands, as long as no number goes on behind it
(`ends_numberBody_takes`).
-/

namespace Gatehouse.Json.Reader

variable {α : Type} {c : Cursor}

/-- A reader gives a result for a text wherever it stands, if no number goes on behind it. -/
def Gives (r : Reader α) (u : List UInt8) (a : α) : Prop :=
  ∀ (c : Cursor) (t : List UInt8), Ended t → c.rest = u ++ t →
    Ends r c (fun b d => b = a ∧ d.rest = t) fun _ => False

section Numbers

variable {positive : Bool} {significand : Nat} {exponent : Int}

theorem ends_floatOf_takes :
    Ends (floatOf positive significand exponent) c
      (fun n d => d = c ∧ Gives (floatOf positive significand exponent) [] n) fun _ => True := by
  unfold Gives floatOf
  cases scaled? significand exponent with
  | none => trivial
  | some x => exact ⟨rfl, fun c' t _ h => ⟨rfl, h⟩⟩

theorem ends_exponentDigits_run {upward : Bool} {b : UInt8} {ds u : List UInt8}
    (hb : Byte.isDigit b = true) (hds : Digits ds) (hu : NoDigit u) (h : c.rest = b :: (ds ++ u))
    {good : Number → Cursor → Prop} {bad : Cursor → Prop} :
    Ends (exponentDigits positive significand exponent upward) c good bad ↔
      match exponentOf (Byte.digitValue b) (ds.map Byte.digitValue) with
      | .ok e =>
        Ends (floatOf positive significand (if upward then exponent + e else exponent - e))
          (Cursor.advance ds.length c.step) good bad
      | .error n =>
        if significand ≠ 0 ∧ upward then bad (Cursor.advance n c.step)
        else good (.float (if positive then 0 else -0)) (Cursor.advance ds.length c.step) := by
  have hstep : c.step.rest = ds ++ u := by rw [Cursor.rest_step, h, List.tail_cons]
  unfold exponentDigits
  rw [ends_bind, ends_next?, h, List.head?_cons]
  show Ends (if !Byte.isDigit b then _ else _) c.step _ _ ↔ _
  rw [hb, if_neg (by decide), ends_bind, ends_get, hstep, takeWhile_digits hds hu]
  dsimp only
  rw [List.length_map]
  cases exponentOf (Byte.digitValue b) (ds.map Byte.digitValue) with
  | ok e =>
    dsimp only
    rw [ends_bind, ends_modify]
  | error n =>
    dsimp only
    by_cases hover : significand ≠ 0 ∧ upward
    · rw [if_pos hover, if_pos hover, ends_bind, ends_modify, ends_stop]
    · rw [if_neg hover, if_neg hover, ends_bind, ends_modify, ends_pure]

theorem ends_exponentDigits_ne {upward : Bool} {good : Number → Cursor → Prop}
    (h : ∀ b, c.rest.head? = some b → ¬ Byte.isDigit b = true) :
    Ends (exponentDigits positive significand exponent upward) c good fun _ => True := by
  unfold exponentDigits
  rw [ends_bind, ends_next?]
  cases hhead : c.rest.head? with
  | none => trivial
  | some b =>
    show Ends (if !Byte.isDigit b then _ else _) c.step _ _
    rw [if_pos (by simpa using h b hhead)]
    trivial

theorem ends_exponentDigits_takes {upward : Bool} :
    Ends (exponentDigits positive significand exponent upward) c
      (fun n d => ∃ ds, ds ≠ [] ∧ Digits ds ∧ c.rest = ds ++ d.rest ∧
        Gives (exponentDigits positive significand exponent upward) ds n)
      fun _ => True := by
  by_cases hdigit : ∃ b, c.rest.head? = some b ∧ Byte.isDigit b = true
  · obtain ⟨b, hhead, hb⟩ := hdigit
    obtain ⟨ds, u, hds, hu, hstep⟩ := exists_digits c.step.rest
    have hrest : c.rest = b :: (ds ++ u) := by rw [Cursor.rest_of_head? hhead, hstep]
    have hend : ∀ {c' : Cursor} {t : List UInt8}, c'.rest = b :: (ds ++ t) →
        (Cursor.advance ds.length c'.step).rest = t := by
      intro c' t h
      rw [Cursor.rest_advance, Cursor.rest_step, h, List.tail_cons, List.drop_left]
    have hall : Digits (b :: ds) := List.forall_mem_cons.mpr ⟨hb, hds⟩
    have htook : c.rest = (b :: ds) ++ (Cursor.advance ds.length c.step).rest := by
      rw [hend hrest]
      exact hrest
    rw [ends_exponentDigits_run hb hds hu hrest]
    cases he : exponentOf (Byte.digitValue b) (ds.map Byte.digitValue) with
    | ok e =>
      dsimp only
      apply ends_floatOf_takes.imp
      rintro n _ ⟨rfl, hgives⟩
      refine ⟨b :: ds, List.cons_ne_nil _ _, hall, htook, fun c' t ht h => ?_⟩
      rw [ends_exponentDigits_run hb hds ht.noDigit h, he]
      exact hgives _ t ht (hend h)
    | error n =>
      dsimp only
      by_cases hover : significand ≠ 0 ∧ upward
      · rw [if_pos hover]
        trivial
      · rw [if_neg hover]
        refine ⟨b :: ds, List.cons_ne_nil _ _, hall, htook, fun c' t ht h => ?_⟩
        rw [ends_exponentDigits_run hb hds ht.noDigit h, he]
        dsimp only
        rw [if_neg hover]
        exact ⟨rfl, hend h⟩
  · exact ends_exponentDigits_ne fun b hhead hb => hdigit ⟨b, hhead, hb⟩

/-- The sign that an exponent starts with, and whether it is upward. -/
def signAt : Option UInt8 → List UInt8 × Bool
  | some Byte.plus => ([Byte.plus], true)
  | some Byte.minus => ([Byte.minus], false)
  | _ => ([], true)

theorem signAt_eq (o : Option UInt8) :
    (o = some Byte.plus ∧ signAt o = ([Byte.plus], true)) ∨
      (o = some Byte.minus ∧ signAt o = ([Byte.minus], false)) ∨
      (o ≠ some Byte.plus ∧ o ≠ some Byte.minus ∧ signAt o = ([], true)) := by
  by_cases hplus : o = some Byte.plus
  · subst hplus
    exact .inl ⟨rfl, rfl⟩
  · by_cases hminus : o = some Byte.minus
    · subst hminus
      exact .inr (.inl ⟨rfl, rfl⟩)
    · refine .inr (.inr ⟨hplus, hminus, ?_⟩)
      unfold signAt
      split
      · exact absurd rfl hplus
      · exact absurd rfl hminus
      · rfl

theorem signAt_cases (o : Option UInt8) :
    (signAt o).1 = [] ∨ (signAt o).1 = [Byte.plus] ∨ (signAt o).1 = [Byte.minus] := by
  rcases signAt_eq o with ⟨-, h⟩ | ⟨-, h⟩ | ⟨-, -, h⟩
  · exact .inr (.inl (by rw [h]))
  · exact .inr (.inr (by rw [h]))
  · exact .inl (by rw [h])

/-- In front of a digit a sign stands for itself. -/
theorem signAt_append {o : Option UInt8} {b : UInt8} (hb : Byte.isDigit b = true)
    (t : List UInt8) : signAt ((signAt o).1 ++ b :: t).head? = signAt o := by
  rcases signAt_eq o with ⟨-, h⟩ | ⟨-, h⟩ | ⟨-, -, h⟩
  · rw [h]
    rfl
  · rw [h]
    rfl
  · rw [h, List.nil_append, List.head?_cons]
    rcases signAt_eq (some b) with ⟨hplus, -⟩ | ⟨hminus, -⟩ | ⟨-, -, hb'⟩
    · cases hplus
      cases hb
    · cases hminus
      cases hb
    · exact hb'

theorem rest_signAt (c : Cursor) :
    c.rest = (signAt c.rest.head?).1 ++
      (Cursor.advance (signAt c.rest.head?).1.length c).rest := by
  rcases signAt_eq c.rest.head? with ⟨hplus, h⟩ | ⟨hminus, h⟩ | ⟨-, -, h⟩
  · rw [h]
    exact Cursor.rest_of_head? hplus
  · rw [h]
    exact Cursor.rest_of_head? hminus
  · rw [h]
    rfl

theorem ends_exponentPart_sign {good : Number → Cursor → Prop} {bad : Cursor → Prop} :
    Ends (exponentPart positive significand exponent) c good bad ↔
      Ends (exponentDigits positive significand exponent (signAt c.step.rest.head?).2)
        (Cursor.advance (signAt c.step.rest.head?).1.length c.step) good bad := by
  unfold exponentPart
  rw [ends_bind, ends_skip, ends_bind, ends_peek?]
  rcases signAt_eq c.step.rest.head? with ⟨hplus, h⟩ | ⟨hminus, h⟩ | ⟨hplus, hminus, h⟩
  · rw [h, hplus]
    exact Iff.rfl
  · rw [h, hminus]
    exact Iff.rfl
  · rw [h]
    split
    · next heq => exact absurd heq hplus
    · next heq => exact absurd heq hminus
    · exact Iff.rfl

theorem ends_exponentPart_takes {mark : UInt8} (hmark : mark = Byte.smallE ∨ mark = Byte.capitalE)
    (h : c.rest.head? = some mark) :
    Ends (exponentPart positive significand exponent) c
      (fun n d => ∃ e, Exponent (mark :: e) ∧ c.rest = mark :: (e ++ d.rest) ∧
        Gives (exponentPart positive significand exponent) (mark :: e) n)
      fun _ => True := by
  rw [ends_exponentPart_sign]
  have hsign := signAt_cases c.step.rest.head?
  have hrest := rest_signAt c.step
  have happend : ∀ {b : UInt8} (t : List UInt8), Byte.isDigit b = true →
      signAt ((signAt c.step.rest.head?).1 ++ b :: t).head? = signAt c.step.rest.head? :=
    fun t hb => signAt_append hb t
  generalize signAt c.step.rest.head? = sign at hsign hrest happend ⊢
  apply ends_exponentDigits_takes.imp
  rintro n d ⟨ds, hne, hds, hd, hgives⟩
  rw [hd] at hrest
  refine ⟨sign.1 ++ ds, .some hmark hsign hne hds, ?_, fun c' t ht h' => ?_⟩
  · rw [Cursor.rest_of_head? h, hrest, List.append_assoc]
  · obtain ⟨b, ds, rfl⟩ := List.exists_cons_of_ne_nil hne
    have hstep : c'.step.rest = sign.1 ++ b :: (ds ++ t) := by
      rw [Cursor.rest_step, h']
      simp only [List.cons_append, List.append_assoc, List.tail_cons]
    have hsame : signAt c'.step.rest.head? = sign := by
      rw [hstep]
      exact happend _ (hds b List.mem_cons_self)
    rw [ends_exponentPart_sign, hsame]
    refine hgives _ t ht ?_
    rw [Cursor.rest_advance, hstep, List.drop_left, List.cons_append]

theorem ends_exponentOrEnd_mark {mark : UInt8} (hmark : mark = Byte.smallE ∨ mark = Byte.capitalE)
    (h : c.rest.head? = some mark) {good : Number → Cursor → Prop} {bad : Cursor → Prop} :
    Ends (exponentOrEnd positive significand exponent) c good bad ↔
      Ends (exponentPart positive significand exponent) c good bad := by
  unfold exponentOrEnd
  rw [ends_bind, ends_peek?, h]
  rcases hmark with rfl | rfl
  · exact Iff.rfl
  · exact Iff.rfl

theorem ends_exponentOrEnd_end (hsmall : c.rest.head? ≠ some Byte.smallE)
    (hcapital : c.rest.head? ≠ some Byte.capitalE) {good : Number → Cursor → Prop}
    {bad : Cursor → Prop} :
    Ends (exponentOrEnd positive significand exponent) c good bad ↔
      Ends (floatOf positive significand exponent) c good bad := by
  unfold exponentOrEnd
  rw [ends_bind, ends_peek?]
  split
  · next heq => exact absurd heq hsmall
  · next heq => exact absurd heq hcapital
  · exact Iff.rfl

theorem ends_exponentOrEnd_takes :
    Ends (exponentOrEnd positive significand exponent) c
      (fun n d => ∃ e, Exponent e ∧ c.rest = e ++ d.rest ∧
        Gives (exponentOrEnd positive significand exponent) e n)
      fun _ => True := by
  by_cases hexponent : ∃ mark, (mark = Byte.smallE ∨ mark = Byte.capitalE) ∧
      c.rest.head? = some mark
  · obtain ⟨mark, hmark, hhead⟩ := hexponent
    rw [ends_exponentOrEnd_mark hmark hhead]
    apply (ends_exponentPart_takes hmark hhead).imp
    rintro n d ⟨e, he, hrest, hgives⟩
    refine ⟨mark :: e, he, hrest, fun c' t ht h' => ?_⟩
    rw [ends_exponentOrEnd_mark hmark (by rw [h']; rfl)]
    exact hgives c' t ht h'
  · rw [ends_exponentOrEnd_end (fun h => hexponent ⟨_, .inl rfl, h⟩)
      fun h => hexponent ⟨_, .inr rfl, h⟩]
    apply ends_floatOf_takes.imp
    rintro n _ ⟨rfl, hgives⟩
    refine ⟨[], .none, rfl, fun c' t ht h' => ?_⟩
    have hended : Ended c'.rest := by
      rw [h']
      exact ht
    rw [ends_exponentOrEnd_end (hended.head_ne (.inr (.inr (.inl rfl))))
      (hended.head_ne (.inr (.inr (.inr rfl))))]
    exact hgives c' t ht h'

theorem ends_fractionPart_takes (h : c.rest.head? = some Byte.point) :
    Ends (fractionPart positive significand exponent) c
      (fun n d => ∃ ds e, ds ≠ [] ∧ Digits ds ∧ Exponent e ∧
        c.rest = Byte.point :: (ds ++ (e ++ d.rest)) ∧
        Gives (fractionPart positive significand exponent) (Byte.point :: (ds ++ e)) n)
      fun _ => True := by
  obtain ⟨ds, u, hds, hu, hstep⟩ := exists_digits c.step.rest
  have hequation : ∀ {c' : Cursor} {t : List UInt8} {good : Number → Cursor → Prop}
      {bad : Cursor → Prop}, NoDigit t → c'.step.rest = ds ++ t → ds ≠ [] →
      (Ends (fractionPart positive significand exponent) c' good bad ↔
        Ends (exponentOrEnd positive (accumulate significand (ds.map Byte.digitValue)).1
          (exponent - ((ds.map Byte.digitValue).length -
            (accumulate significand (ds.map Byte.digitValue)).2.length)))
          (Cursor.advance ds.length c'.step) good bad) := by
    intro c' t good bad ht h' hne
    unfold fractionPart
    rw [ends_bind, ends_skip, ends_bind, ends_digitRun, h', takeWhile_digits hds ht, if_neg]
    simpa using hne
  by_cases hne : ds = []
  · subst hne
    unfold fractionPart
    rw [ends_bind, ends_skip, ends_bind, ends_digitRun, hstep, takeWhile_digits hds hu]
    rw [List.map_nil, List.isEmpty_nil, if_pos rfl, ends_bind, ends_peek?]
    split <;> trivial
  · rw [hequation hu hstep hne]
    apply ends_exponentOrEnd_takes.imp
    rintro n d ⟨e, he, hd, hgives⟩
    rw [Cursor.rest_advance, hstep, List.drop_left] at hd
    refine ⟨ds, e, hne, hds, he, by rw [Cursor.rest_of_head? h, hstep, hd], fun c' t ht h' => ?_⟩
    have hstep' : c'.step.rest = ds ++ (e ++ t) := by
      rw [Cursor.rest_step, h', List.cons_append, List.append_assoc, List.tail_cons]
    rw [hequation (he.noDigit ht) hstep' hne]
    exact hgives _ t ht (by rw [Cursor.rest_advance, hstep', List.drop_left])

section AfterWhole

variable {surplus : List Nat} {good : Number → Cursor → Prop} {bad : Cursor → Prop}

theorem ends_afterWhole_point (h : c.rest.head? = some Byte.point) :
    Ends (afterWhole positive significand surplus) c good bad ↔
      Ends (fractionPart positive significand surplus.length) c good bad := by
  unfold afterWhole
  rw [ends_bind, ends_peek?, h]
  exact Iff.rfl

theorem ends_afterWhole_mark {mark : UInt8} (hmark : mark = Byte.smallE ∨ mark = Byte.capitalE)
    (h : c.rest.head? = some mark) :
    Ends (afterWhole positive significand surplus) c good bad ↔
      Ends (exponentPart positive significand surplus.length) c good bad := by
  unfold afterWhole
  rw [ends_bind, ends_peek?, h]
  rcases hmark with rfl | rfl
  · exact Iff.rfl
  · exact Iff.rfl

theorem ends_afterWhole_end (hpoint : c.rest.head? ≠ some Byte.point)
    (hsmall : c.rest.head? ≠ some Byte.smallE) (hcapital : c.rest.head? ≠ some Byte.capitalE) :
    Ends (afterWhole positive significand surplus) c good bad ↔
      Ends (if surplus.isEmpty then pure (wholeNumber positive significand)
        else floatOf positive significand surplus.length) c good bad := by
  unfold afterWhole
  rw [ends_bind, ends_peek?]
  split
  · next heq => exact absurd heq hpoint
  · next heq => exact absurd heq hsmall
  · next heq => exact absurd heq hcapital
  · exact Iff.rfl

/-- At the end of a number its digits are all there is. -/
theorem gives_afterWhole_nil {n : Number}
    (h : Gives (if surplus.isEmpty then pure (wholeNumber positive significand)
      else floatOf positive significand surplus.length) [] n) :
    Gives (afterWhole positive significand surplus) [] n := by
  intro c t ht hc
  have hended : Ended c.rest := by
    rw [hc]
    exact ht
  rw [ends_afterWhole_end (hended.head_ne (.inr (.inl rfl)))
    (hended.head_ne (.inr (.inr (.inl rfl)))) (hended.head_ne (.inr (.inr (.inr rfl))))]
  exact h c t ht hc

end AfterWhole

theorem ends_afterWhole_takes {surplus : List Nat} :
    Ends (afterWhole positive significand surplus) c
      (fun n d => ∃ f e, Fraction f ∧ Exponent e ∧ c.rest = f ++ (e ++ d.rest) ∧
        Gives (afterWhole positive significand surplus) (f ++ e) n)
      fun _ => True := by
  by_cases hpoint : c.rest.head? = some Byte.point
  · rw [ends_afterWhole_point hpoint]
    apply (ends_fractionPart_takes hpoint).imp
    rintro n d ⟨ds, e, hne, hds, he, hrest, hgives⟩
    refine ⟨Byte.point :: ds, e, .some hne hds, he, hrest, fun c' t ht h' => ?_⟩
    rw [ends_afterWhole_point (by rw [h']; rfl)]
    exact hgives c' t ht h'
  by_cases hexponent : ∃ mark, (mark = Byte.smallE ∨ mark = Byte.capitalE) ∧
      c.rest.head? = some mark
  · obtain ⟨mark, hmark, hhead⟩ := hexponent
    rw [ends_afterWhole_mark hmark hhead]
    apply (ends_exponentPart_takes hmark hhead).imp
    rintro n d ⟨e, he, hrest, hgives⟩
    refine ⟨[], mark :: e, .none, he, hrest, fun c' t ht h' => ?_⟩
    rw [ends_afterWhole_mark hmark (by rw [h']; rfl)]
    exact hgives c' t ht h'
  · rw [ends_afterWhole_end hpoint (fun h => hexponent ⟨_, .inl rfl, h⟩)
      fun h => hexponent ⟨_, .inr rfl, h⟩]
    by_cases hempty : surplus.isEmpty
    · rw [if_pos hempty]
      refine ⟨[], [], .none, .none, rfl, gives_afterWhole_nil fun c' t _ h' => ?_⟩
      rw [if_pos hempty]
      exact ⟨rfl, h'⟩
    · rw [if_neg hempty]
      apply ends_floatOf_takes.imp
      rintro n _ ⟨rfl, hgives⟩
      refine ⟨[], [], .none, .none, rfl, gives_afterWhole_nil ?_⟩
      rw [if_neg hempty]
      exact hgives

/-- A number that starts with a zero has no other digit in front of the point. -/
theorem ends_numberBody_zero {t : List UInt8} (ht : NoDigit t) (h : c.rest = Byte.zero :: t)
    {good : Number → Cursor → Prop} {bad : Cursor → Prop} :
    Ends (numberBody positive) c good bad ↔ Ends (afterWhole positive 0 []) c.step good bad := by
  have hstep : c.step.rest = t := by rw [Cursor.rest_step, h, List.tail_cons]
  unfold numberBody
  rw [ends_bind, ends_next?, h, List.head?_cons]
  show Ends (peek? >>= _) c.step good bad ↔ _
  rw [ends_bind, ends_peek?, hstep, if_neg]
  intro hdigit
  cases hhead : t.head? with
  | none =>
    rw [hhead] at hdigit
    cases hdigit
  | some b =>
    rw [hhead] at hdigit
    have hfalse := ht b hhead
    rw [Option.map_some, Option.getD_some, hfalse] at hdigit
    cases hdigit

theorem ends_numberBody_digits {b : UInt8} {ds t : List UInt8} (hb : Byte.isDigit b = true)
    (hne : b ≠ Byte.zero) (hds : Digits ds) (ht : NoDigit t) (h : c.rest = b :: (ds ++ t))
    {good : Number → Cursor → Prop} {bad : Cursor → Prop} :
    Ends (numberBody positive) c good bad ↔
      Ends (afterWhole positive (accumulate (Byte.digitValue b) (ds.map Byte.digitValue)).1
        (accumulate (Byte.digitValue b) (ds.map Byte.digitValue)).2)
        (Cursor.advance ds.length c.step) good bad := by
  have hstep : c.step.rest = ds ++ t := by rw [Cursor.rest_step, h, List.tail_cons]
  unfold numberBody
  rw [ends_bind, ends_next?, h, List.head?_cons]
  simp only [hb, Bool.not_true, Bool.false_eq_true, ↓reduceIte, hne]
  rw [ends_bind, ends_digitRun, hstep, takeWhile_digits hds ht]

theorem ends_numberBody_ne {good : Number → Cursor → Prop}
    (h : ∀ b, c.rest.head? = some b → ¬ Byte.isDigit b = true) :
    Ends (numberBody positive) c good fun _ => True := by
  unfold numberBody
  rw [ends_bind, ends_next?]
  cases hhead : c.rest.head? with
  | none => trivial
  | some b =>
    show Ends (if !Byte.isDigit b then _ else _) c.step _ _
    rw [if_pos (by simpa using h b hhead)]
    trivial

theorem ends_numberBody_zero_takes (hhead : c.rest.head? = some Byte.zero) :
    Ends (numberBody positive) c
      (fun n d => ∃ m, Magnitude m ∧ c.rest = m ++ d.rest ∧ Gives (numberBody positive) m n)
      fun _ => True := by
  have hrest := Cursor.rest_of_head? hhead
  by_cases hdigit : ∃ x t, Byte.isDigit x = true ∧ c.step.rest = x :: t
  · obtain ⟨x, t, hx, hstep⟩ := hdigit
    unfold numberBody
    rw [ends_bind, ends_next?, hhead]
    show Ends (peek? >>= _) c.step _ _
    rw [ends_bind, ends_peek?, hstep, List.head?_cons, if_pos]
    · trivial
    · exact hx
  · have hnone : NoDigit c.step.rest := by
      intro x hx
      obtain ⟨t, ht⟩ := List.head?_eq_some_iff.mp hx
      exact eq_false_of_ne_true fun hdigit' => hdigit ⟨x, t, hdigit', ht⟩
    rw [ends_numberBody_zero hnone hrest]
    apply ends_afterWhole_takes.imp
    rintro n d ⟨f, e, hf, he, hd, hgives⟩
    refine ⟨_, ⟨[Byte.zero], f, e, rfl, .zero, hf, he⟩, ?_, fun c' t ht h' => ?_⟩
    · rw [hrest, hd]
      simp only [List.cons_append, List.nil_append, List.append_assoc]
    · simp only [List.cons_append, List.nil_append, List.append_assoc] at h'
      rw [ends_numberBody_zero (hf.noDigit he ht) h']
      refine hgives _ t ht ?_
      rw [Cursor.rest_step, h', List.tail_cons, List.append_assoc]

/-- What is read as a number is one, and its text gives it wherever it stands. -/
theorem ends_numberBody_takes :
    Ends (numberBody positive) c
      (fun n d => ∃ m, Magnitude m ∧ c.rest = m ++ d.rest ∧ Gives (numberBody positive) m n)
      fun _ => True := by
  by_cases hdigit : ∃ b, c.rest.head? = some b ∧ Byte.isDigit b = true
  · obtain ⟨b, hhead, hb⟩ := hdigit
    by_cases hzero : b = Byte.zero
    · subst hzero
      exact ends_numberBody_zero_takes hhead
    · obtain ⟨ds, u, hds, hu, hstep⟩ := exists_digits c.step.rest
      have hrest : c.rest = b :: (ds ++ u) := by rw [Cursor.rest_of_head? hhead, hstep]
      rw [ends_numberBody_digits hb hzero hds hu hrest]
      apply ends_afterWhole_takes.imp
      rintro n d ⟨f, e, hf, he, hd, hgives⟩
      rw [Cursor.rest_advance, hstep, List.drop_left] at hd
      refine ⟨_, ⟨b :: ds, f, e, rfl, .run hb hzero hds, hf, he⟩, ?_, fun c' t ht h' => ?_⟩
      · rw [hrest, hd]
        simp only [List.cons_append, List.append_assoc]
      · simp only [List.cons_append, List.append_assoc] at h'
        rw [ends_numberBody_digits hb hzero hds (hf.noDigit he ht) h']
        refine hgives _ t ht ?_
        rw [Cursor.rest_advance, Cursor.rest_step, h', List.tail_cons, List.drop_left,
          List.append_assoc]
  · exact ends_numberBody_ne fun b hhead hb => hdigit ⟨b, hhead, hb⟩

end Numbers

end Gatehouse.Json.Reader
