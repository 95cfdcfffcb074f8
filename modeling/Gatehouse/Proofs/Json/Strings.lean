import Gatehouse.Proofs.Json.Grammar
import Gatehouse.Proofs.Json.Reading
import Gatehouse.Proofs.Text.Utf8

/-!
# Reading strings

The reader of a string and the grammar of strings agree (`ends_stringBody`, `ends_stringBody_of`),
and so do the skipper of strings and the grammar of strings that nobody reads. A printed string
denotes the bytes of its text (`denotes_escape`).
-/

namespace Gatehouse.Json.Reader

variable {α : Type} {c : Cursor}

/-! ## Runs -/

section Runs

variable {n : Nat} {b : UInt8} {t : List UInt8} {good : List UInt8 → Cursor → Prop}
  {bad : Cursor → Prop}

theorem takeWhile_plain_cons (hb : isPlain b = true) :
    (b :: t).takeWhile isPlain = b :: t.takeWhile isPlain := by
  rw [List.takeWhile_cons_of_pos hb]

theorem ends_plainRun :
    Ends plainRun c good bad ↔
      good (c.rest.takeWhile isPlain) (Cursor.advance (c.rest.takeWhile isPlain).length c) :=
  Iff.rfl

/-- A plain byte makes the run longer and takes no run of its own. -/
theorem ends_stringRuns_plain (h : c.rest = b :: t) (hb : isPlain b = true) :
    Ends (stringRuns (n + 1)) c good bad ↔
      Ends (stringRuns (n + 1)) c.step (fun bs d => good (b :: bs) d) bad := by
  have hrun : c.rest.takeWhile isPlain = b :: c.step.rest.takeWhile isPlain := by
    rw [Cursor.rest_step, h, List.tail_cons, takeWhile_plain_cons hb]
  rw [stringRuns, ends_bind, ends_bind, ends_plainRun, ends_plainRun, hrun]
  show Ends _ (Cursor.advance (c.step.rest.takeWhile isPlain).length c.step) _ _ ↔ _
  generalize Cursor.advance (c.step.rest.takeWhile isPlain).length c.step = d
  rw [ends_bind, ends_bind, ends_peek?, ends_peek?]
  split
  · simp only [ends_stop]
  · simp only [ends_bind, ends_skip, ends_pure]
  · simp only [ends_bind, ends_skip, ends_pure, List.cons_append]
  · simp only [ends_bind, ends_skip, ends_stop]

theorem ends_stringRuns_quote (h : c.rest = Byte.quote :: t) :
    Ends (stringRuns (n + 1)) c good bad ↔ good [] c.step := by
  have hrun : c.rest.takeWhile isPlain = [] := by
    rw [h]
    rfl
  rw [stringRuns, ends_bind, ends_plainRun, hrun, ends_bind, ends_peek?, List.length_nil,
    Cursor.advance, h]
  exact Iff.rfl

theorem ends_stringRuns_escape (h : c.rest = Byte.backslash :: t) :
    Ends (stringRuns (n + 1)) c good bad ↔
      Ends escape c.step (fun e d => Ends (stringRuns n) d (fun bs d' => good (e ++ bs) d') bad)
        bad := by
  have hrun : c.rest.takeWhile isPlain = [] := by
    rw [h]
    rfl
  rw [stringRuns, ends_bind, ends_plainRun, hrun, ends_bind, ends_peek?, List.length_nil,
    Cursor.advance, h]
  show Ends (skip >>= fun _ => escape >>= fun e => stringRuns n >>= fun bs => pure ([] ++ e ++ bs))
    c good bad ↔ _
  simp only [ends_bind, ends_skip, ends_pure, List.nil_append]

theorem ends_stringRuns_nil (h : c.rest = []) :
    Ends (stringRuns (n + 1)) c good bad ↔ bad c := by
  rw [stringRuns, ends_bind, ends_plainRun, h, List.takeWhile_nil, ends_bind, ends_peek?,
    List.length_nil, Cursor.advance, h]
  exact Iff.rfl

theorem ends_stringRuns_control (h : c.rest = b :: t) (hb : isPlain b = false)
    (hquote : b ≠ Byte.quote) (hslash : b ≠ Byte.backslash) :
    Ends (stringRuns (n + 1)) c good bad ↔ bad c.step := by
  have hrun : c.rest.takeWhile isPlain = [] := by
    rw [h, List.takeWhile_cons_of_neg (by rw [hb]; decide)]
  rw [stringRuns, ends_bind, ends_plainRun, hrun, ends_bind, ends_peek?, List.length_nil,
    Cursor.advance, h, List.head?_cons]
  split
  · next heq => cases heq
  · next heq => exact absurd (Option.some.inj heq) hquote
  · next heq => exact absurd (Option.some.inj heq) hslash
  · exact Iff.rfl

end Runs

/-! ## Escapes -/

theorem eq_of_hexOf? {q : List UInt8} {n : Nat} (h : hexOf? q = some n) :
    ∃ x y z w, q = [x, y, z, w] := by
  unfold hexOf? at h
  split at h
  · exact ⟨_, _, _, _, rfl⟩
  · cases h

theorem length_of_hexOf? {q : List UInt8} {n : Nat} (h : hexOf? q = some n) : q.length = 4 := by
  obtain ⟨_, _, _, _, rfl⟩ := eq_of_hexOf? h
  rfl

section Escapes

variable {q t : List UInt8} {n : Nat} {bad : Cursor → Prop}

theorem ends_hexDigits_of {good : Nat → Cursor → Prop} (h : c.rest = q ++ t)
    (hq : hexOf? q = some n) :
    Ends hexDigits c good bad ↔ good n (Cursor.advance 4 c) := by
  have hlength := length_of_hexOf? hq
  have htake : c.rest.take 4 = q := by rw [h, ← hlength, List.take_left']; rfl
  unfold hexDigits
  rw [ends_bind, ends_get, if_neg (by rw [h, List.length_append]; omega), ends_bind, ends_modify,
    htake, hq, ends_pure]

theorem ends_pairByte_of {b : UInt8} {good : Unit → Cursor → Prop} (h : c.rest = b :: t) :
    Ends (pairByte b) c good bad ↔ good () c.step := by
  unfold pairByte
  rw [ends_bind, ends_peek?, h, List.head?_cons]
  simp only [ends_bind, ends_skip, ↓reduceIte, ends_pure]

theorem rest_advance_four (h : c.rest = q ++ t) (hq : hexOf? q = some n) :
    (Cursor.advance 4 c).rest = t := by
  rw [Cursor.rest_advance, h, ← length_of_hexOf? hq, List.drop_left]

/-- The reader takes every escape for the bytes that it is for. -/
theorem ends_escape_of {x e : List UInt8} (hx : Escape x e) (h : c.rest = x ++ t)
    {good : List UInt8 → Cursor → Prop} (hgood : ∀ d, d.rest = t → good e d) :
    Ends escape c good bad := by
  cases hx with
  | letter hb =>
    unfold escape
    rw [ends_bind, ends_next?, h, List.cons_append, List.head?_cons]
    simp only [hb, ends_pure]
    exact hgood _ (by rw [Cursor.rest_step, h]; rfl)
  | @hex q n hq hn =>
    unfold escape
    rw [ends_bind, ends_next?, h, List.cons_append, List.head?_cons]
    show Ends hexEscape c.step good bad
    have hstep : c.step.rest = q ++ t := by rw [Cursor.rest_step, h]; rfl
    unfold hexEscape
    rw [ends_bind, ends_hexDigits_of hstep hq, if_neg (by omega), if_pos (by omega), ends_pure]
    exact hgood _ (rest_advance_four hstep hq)
  | @pair q r n m hq hlow hhigh hr hlow' hhigh' =>
    unfold escape
    rw [ends_bind, ends_next?, h, List.cons_append, List.head?_cons]
    show Ends hexEscape c.step good bad
    have hstep : c.step.rest = q ++ Byte.backslash :: Byte.smallU :: (r ++ t) := by
      rw [Cursor.rest_step, h]
      simp only [List.cons_append, List.append_assoc, List.tail_cons]
    have hfirst := rest_advance_four hstep hq
    have hslash : (Cursor.advance 4 c.step).step.rest = Byte.smallU :: (r ++ t) := by
      rw [Cursor.rest_step, hfirst, List.tail_cons]
    have hsecond : (Cursor.advance 4 c.step).step.step.rest = r ++ t := by
      rw [Cursor.rest_step, hslash, List.tail_cons]
    unfold hexEscape
    rw [ends_bind, ends_hexDigits_of hstep hq, if_neg (by omega), if_neg (by omega), ends_bind,
      ends_pairByte_of hfirst, ends_bind, ends_pairByte_of hslash, ends_bind,
      ends_hexDigits_of hsecond hr, if_neg (by omega), ends_pure]
    exact hgood _ (rest_advance_four hsecond hr)

theorem ends_hexDigits :
    Ends hexDigits c (fun n d => ∃ q, hexOf? q = some n ∧ c.rest = q ++ d.rest)
      fun _ => True := by
  unfold hexDigits
  rw [ends_bind, ends_get]
  dsimp only
  split
  · trivial
  · rw [ends_bind, ends_modify]
    split
    · next n hn => exact ⟨_, hn, by rw [Cursor.rest_advance, List.take_append_drop]⟩
    · trivial

theorem ends_pairByte {b : UInt8} :
    Ends (pairByte b) c (fun _ d => c.rest = b :: d.rest) fun _ => True := by
  unfold pairByte
  rw [ends_bind, ends_peek?]
  split
  · trivial
  · next x hx =>
    rw [ends_bind, ends_skip]
    split
    · next heq =>
      rw [ends_pure, ← heq]
      exact Cursor.rest_of_head? hx
    · trivial

/-- What the reader takes for an escape is one, for the bytes that it gives. -/
theorem ends_escape :
    Ends escape c (fun e d => ∃ x, Escape x e ∧ c.rest = x ++ d.rest) fun _ => True := by
  unfold escape
  rw [ends_bind, ends_next?]
  split
  · trivial
  · next b hb =>
    have hstep := Cursor.rest_of_head? hb
    split
    · next e he => exact ⟨[b], .letter he, hstep⟩
    · split
      · next hu =>
        subst hu
        unfold hexEscape
        apply Ends.bind ends_hexDigits
        rintro n d ⟨q, hq, hrest⟩
        split
        · trivial
        · next hhigh =>
          split
          · next hn => exact ⟨_, .hex hq (by omega), by rw [hstep, hrest, List.cons_append]⟩
          · next hn =>
            apply Ends.bind ends_pairByte
            intro _ d' hd'
            apply Ends.bind ends_pairByte
            intro _ d'' hd''
            apply Ends.bind ends_hexDigits
            rintro m e ⟨r, hr, he⟩
            split
            · trivial
            · refine ⟨_, .pair hq (by omega) (by omega) hr (by omega) (by omega), ?_⟩
              rw [hstep, hrest, hd', hd'', he]
              simp only [List.cons_append, List.append_assoc]
      · trivial

end Escapes

/-! ## Whole strings -/

/-- What the reader takes for a string is one, for the bytes that it gives. -/
theorem ends_stringRuns (n : Nat) :
    Ends (stringRuns n) c (fun bs d => ∃ t, Denotes t bs ∧ c.rest = t ++ Byte.quote :: d.rest)
      fun _ => True := by
  -- a plain byte leaves the runs as they are, so that the induction is on the bytes
  induction hlength : c.rest.length using Nat.strongRecOn generalizing c n with
  | _ length ih =>
    subst hlength
    cases n with
    | zero => trivial
    | succ n =>
      cases hrest : c.rest with
      | nil =>
        rw [ends_stringRuns_nil hrest]
        trivial
      | cons b t =>
        have hstep : c.step.rest = t := by rw [Cursor.rest_step, hrest, List.tail_cons]
        by_cases hplain : isPlain b = true
        · rw [ends_stringRuns_plain hrest hplain]
          apply (ih _ (by rw [hstep, hrest]; exact Nat.lt_succ_self _) _ rfl).imp
          rintro bs d ⟨t', ht', heq⟩
          exact ⟨b :: t', .plain hplain ht', by rw [← hstep, heq, List.cons_append]⟩
        · by_cases hquote : b = Byte.quote
          · subst hquote
            rw [ends_stringRuns_quote hrest]
            exact ⟨[], .nil, by rw [hstep, List.nil_append]⟩
          · by_cases hslash : b = Byte.backslash
            · subst hslash
              rw [ends_stringRuns_escape hrest]
              apply ends_escape.imp
              rintro e d ⟨x, hx, hd⟩
              rw [hstep] at hd
              have hlt : d.rest.length < (Byte.backslash :: t).length := by
                rw [hd, List.length_cons, List.length_append]
                omega
              apply (ih _ (by rw [hrest]; exact hlt) _ rfl).imp
              rintro bs d' ⟨t', ht', heq⟩
              refine ⟨Byte.backslash :: (x ++ t'), .escape hx ht', ?_⟩
              rw [hd, heq, List.cons_append, List.append_assoc]
            · rw [ends_stringRuns_control hrest (by simpa using hplain) hquote hslash]
              trivial

/-- What the reader takes for a string spells the text that it gives. -/
theorem ends_stringBody :
    Ends stringBody c
      (fun s d => ∃ t bs, Denotes t bs ∧ Utf8.decode bs = .ok s ∧
        c.rest = t ++ Byte.quote :: d.rest) fun _ => True := by
  unfold stringBody
  rw [ends_bind, ends_get]
  apply Ends.bind (ends_stringRuns _)
  rintro bs d ⟨t, ht, hrest⟩
  split
  · next s hs => exact ⟨t, bs, ht, hs, hrest⟩
  · trivial

/-- The reader takes every string for the bytes that it denotes. -/
theorem ends_stringRuns_of {t bs : List UInt8} (ht : Denotes t bs) {n : Nat}
    (hn : t.length < n) {rest : List UInt8} (h : c.rest = t ++ Byte.quote :: rest)
    {good : List UInt8 → Cursor → Prop} {bad : Cursor → Prop}
    (hgood : ∀ d, d.rest = rest → good bs d) : Ends (stringRuns n) c good bad := by
  induction ht generalizing c n good with
  | nil =>
    obtain ⟨n, rfl⟩ : ∃ k, n = k + 1 := ⟨n - 1, by omega⟩
    rw [ends_stringRuns_quote h]
    exact hgood _ (by rw [Cursor.rest_step, h]; rfl)
  | @plain b t bs hb ht ih =>
    obtain ⟨n, rfl⟩ : ∃ k, n = k + 1 := ⟨n - 1, by omega⟩
    rw [ends_stringRuns_plain h hb]
    refine ih (by simp only [List.length_cons] at hn; omega)
      (by rw [Cursor.rest_step, h]; rfl) hgood
  | @escape x e t bs hx ht ih =>
    obtain ⟨n, rfl⟩ : ∃ k, n = k + 1 := ⟨n - 1, by omega⟩
    rw [ends_stringRuns_escape h]
    have hstep : c.step.rest = x ++ (t ++ Byte.quote :: rest) := by
      rw [Cursor.rest_step, h]
      simp only [List.cons_append, List.append_assoc, List.tail_cons]
    refine ends_escape_of hx hstep fun d hd => ?_
    exact ih (by simp only [List.length_cons, List.length_append] at hn; omega) hd hgood

/-- The reader takes every string for the text that it denotes. -/
theorem ends_stringBody_of {t bs : List UInt8} {s : String} (ht : Denotes t bs)
    (hs : Utf8.decode bs = .ok s) {rest : List UInt8} (h : c.rest = t ++ Byte.quote :: rest)
    {good : String → Cursor → Prop} {bad : Cursor → Prop}
    (hgood : ∀ d, d.rest = rest → good s d) : Ends stringBody c good bad := by
  unfold stringBody
  rw [ends_bind, ends_get, ends_bind]
  refine ends_stringRuns_of ht (by rw [h, List.length_append]; omega) h fun d hd => ?_
  rw [hs]
  exact hgood d hd

/-! ## Passing over strings -/

section Runs

variable {n : Nat} {b : UInt8} {t : List UInt8} {good : Unit → Cursor → Prop}
  {bad : Cursor → Prop}

theorem ends_skipRuns_plain (h : c.rest = b :: t) (hb : isPlain b = true) :
    Ends (skipRuns (n + 1)) c good bad ↔ Ends (skipRuns (n + 1)) c.step good bad := by
  have hrun : c.rest.takeWhile isPlain = b :: c.step.rest.takeWhile isPlain := by
    rw [Cursor.rest_step, h, List.tail_cons, takeWhile_plain_cons hb]
  rw [skipRuns, ends_bind, ends_bind, ends_plainRun, ends_plainRun, hrun]
  exact Iff.rfl

theorem ends_skipRuns_quote (h : c.rest = Byte.quote :: t) :
    Ends (skipRuns (n + 1)) c good bad ↔ good () c.step := by
  have hrun : c.rest.takeWhile isPlain = [] := by
    rw [h]
    rfl
  rw [skipRuns, ends_bind, ends_plainRun, hrun, ends_bind, ends_peek?, List.length_nil,
    Cursor.advance, h]
  exact Iff.rfl

theorem ends_skipRuns_letter {e : UInt8} (h : c.rest = Byte.backslash :: b :: t)
    (hb : letterEscape? b = some e) :
    Ends (skipRuns (n + 1)) c good bad ↔ Ends (skipRuns n) c.step.step good bad := by
  have hrun : c.rest.takeWhile isPlain = [] := by
    rw [h]
    rfl
  have hstep : c.step.rest.head? = some b := by
    rw [Cursor.rest_step, h]
    rfl
  rw [skipRuns, ends_bind, ends_plainRun, hrun, ends_bind, ends_peek?, List.length_nil,
    Cursor.advance, h]
  show Ends (skip >>= fun _ => next? >>= _) c good bad ↔ _
  rw [ends_bind, ends_skip, ends_bind, ends_next?, hstep]
  simp only [hb, Option.isSome_some, ↓reduceIte]

theorem ends_skipRuns_hex (h : c.rest = Byte.backslash :: Byte.smallU :: t) :
    Ends (skipRuns (n + 1)) c good bad ↔
      Ends hexDigits c.step.step (fun _ d => Ends (skipRuns n) d good bad) bad := by
  have hrun : c.rest.takeWhile isPlain = [] := by
    rw [h]
    rfl
  have hstep : c.step.rest.head? = some Byte.smallU := by
    rw [Cursor.rest_step, h]
    rfl
  rw [skipRuns, ends_bind, ends_plainRun, hrun, ends_bind, ends_peek?, List.length_nil,
    Cursor.advance, h]
  show Ends (skip >>= fun _ => next? >>= _) c good bad ↔ _
  rw [ends_bind, ends_skip, ends_bind, ends_next?, hstep]
  show Ends (hexDigits >>= fun _ => skipRuns n) c.step.step good bad ↔ _
  rw [ends_bind]

end Runs

/-- The skipper passes over every string. -/
theorem ends_skipRuns_of {t : List UInt8} (ht : Inner t) {n : Nat} (hn : t.length < n)
    {rest : List UInt8} (h : c.rest = t ++ Byte.quote :: rest) {good : Unit → Cursor → Prop}
    {bad : Cursor → Prop} (hgood : ∀ d, d.rest = rest → good () d) :
    Ends (skipRuns n) c good bad := by
  induction ht generalizing c n with
  | nil =>
    obtain ⟨n, rfl⟩ : ∃ k, n = k + 1 := ⟨n - 1, by omega⟩
    rw [ends_skipRuns_quote h]
    exact hgood _ (by rw [Cursor.rest_step, h]; rfl)
  | @plain b t hb ht ih =>
    obtain ⟨n, rfl⟩ : ∃ k, n = k + 1 := ⟨n - 1, by omega⟩
    rw [ends_skipRuns_plain h hb]
    exact ih (by rw [List.length_cons] at hn; omega) (by rw [Cursor.rest_step, h]; rfl)
  | @letter b e t hb ht ih =>
    obtain ⟨n, rfl⟩ : ∃ k, n = k + 1 := ⟨n - 1, by omega⟩
    rw [ends_skipRuns_letter h hb]
    exact ih (by rw [List.length_cons, List.length_cons] at hn; omega)
      (by rw [Cursor.rest_step, Cursor.rest_step, h]; rfl)
  | @hex q t m hq ht ih =>
    obtain ⟨n, rfl⟩ : ∃ k, n = k + 1 := ⟨n - 1, by omega⟩
    have hdigits : c.step.step.rest = q ++ (t ++ Byte.quote :: rest) := by
      rw [Cursor.rest_step, Cursor.rest_step, h]
      simp only [List.cons_append, List.append_assoc, List.tail_cons]
    rw [ends_skipRuns_hex h, ends_hexDigits_of hdigits hq]
    refine ih ?_ (rest_advance_four hdigits hq)
    simp only [List.length_cons, List.length_append] at hn
    omega

theorem ends_skipString_of {t : List UInt8} (ht : Inner t) {rest : List UInt8}
    (h : c.rest = t ++ Byte.quote :: rest) {good : Unit → Cursor → Prop} {bad : Cursor → Prop}
    (hgood : ∀ d, d.rest = rest → good () d) : Ends skipString c good bad := by
  unfold skipString
  rw [ends_bind, ends_get]
  exact ends_skipRuns_of ht (by rw [h, List.length_append]; omega) h hgood

/-- What the skipper takes for a string is one. -/
theorem ends_skipRuns (n : Nat) :
    Ends (skipRuns n) c (fun _ d => ∃ t, Inner t ∧ c.rest = t ++ Byte.quote :: d.rest)
      fun _ => True := by
  induction hlength : c.rest.length using Nat.strongRecOn generalizing c n with
  | _ length ih =>
    subst hlength
    cases n with
    | zero => trivial
    | succ n =>
      by_cases hplain : ∃ b t, c.rest = b :: t ∧ isPlain b = true
      · obtain ⟨b, t, hrest, hb⟩ := hplain
        have hstep : c.step.rest = t := by rw [Cursor.rest_step, hrest, List.tail_cons]
        rw [ends_skipRuns_plain hrest hb]
        apply (ih _ (by rw [hstep, hrest]; exact Nat.lt_succ_self _) _ rfl).imp
        rintro _ d ⟨t', ht', heq⟩
        exact ⟨b :: t', .plain hb ht', by rw [hrest, ← hstep, heq, List.cons_append]⟩
      · have hrun : c.rest.takeWhile isPlain = [] := by
          cases hrest : c.rest with
          | nil => rfl
          | cons b t =>
            exact List.takeWhile_cons_of_neg fun hb => hplain ⟨b, t, hrest, hb⟩
        rw [skipRuns, ends_bind, ends_plainRun, hrun, List.length_nil, Cursor.advance, ends_bind,
          ends_peek?]
        split
        · trivial
        · next hquote =>
          obtain ⟨t, ht⟩ := List.head?_eq_some_iff.mp hquote
          exact ⟨[], .nil, by rw [Cursor.rest_step, ht]; rfl⟩
        · next hslash =>
          obtain ⟨t, ht⟩ := List.head?_eq_some_iff.mp hslash
          have hstep : c.step.rest = t := by rw [Cursor.rest_step, ht, List.tail_cons]
          rw [ends_bind, ends_skip, ends_bind, ends_next?, hstep]
          split
          · trivial
          · next b hb =>
            obtain ⟨t', ht'⟩ := List.head?_eq_some_iff.mp hb
            have hstep' : c.step.step.rest = t' := by
              rw [Cursor.rest_step, hstep, ht', List.tail_cons]
            split
            · next hletter =>
              obtain ⟨e, he⟩ := Option.isSome_iff_exists.mp hletter
              refine (ih _ ?_ _ rfl).imp ?_
              · rw [hstep', ht, ht', List.length_cons, List.length_cons]
                omega
              · rintro _ d ⟨u, hu, heq⟩
                refine ⟨Byte.backslash :: b :: u, .letter he hu, ?_⟩
                rw [ht, ht', ← hstep', heq]
                rfl
            · split
              · next hhex =>
                subst hhex
                apply Ends.bind ends_hexDigits
                rintro m d ⟨q, hq, hd⟩
                rw [hstep'] at hd
                refine (ih _ ?_ _ rfl).imp ?_
                · rw [ht, ht', hd, List.length_cons, List.length_cons, List.length_append]
                  omega
                · rintro _ e ⟨u, hu, heq⟩
                  refine ⟨Byte.backslash :: Byte.smallU :: (q ++ u), .hex hq hu, ?_⟩
                  rw [ht, ht', hd, heq, ← List.append_assoc]
                  rfl
              · trivial
        · trivial

theorem ends_skipString :
    Ends skipString c (fun _ d => ∃ t, Inner t ∧ c.rest = t ++ Byte.quote :: d.rest)
      fun _ => True :=
  ends_skipRuns _

end Gatehouse.Json.Reader

namespace Gatehouse.Json

/-! ## Printed strings -/

theorem isPlain_of_high {b : UInt8} (h : 0x80 ≤ b.toNat) : isPlain b = true := by
  have hne : ∀ x : UInt8, x.toNat < 0x80 → (b != x) = true := by
    intro x hx
    rw [bne_iff_ne]
    rintro rfl
    omega
  unfold isPlain
  rw [hne _ (by decide), hne _ (by decide), Bool.true_and, Bool.true_and, decide_eq_true_eq,
    UInt8.le_iff_toNat_le]
  exact Nat.le_trans (by decide) h

theorem denotes_plain {run t bs : List UInt8} (hrun : ∀ b ∈ run, isPlain b = true)
    (ht : Denotes t bs) : Denotes (run ++ t) (run ++ bs) := by
  induction run with
  | nil => exact ht
  | cons b run ih =>
    exact .plain (hrun b List.mem_cons_self) (ih fun b hb => hrun b (List.mem_cons_of_mem _ hb))

/-- A character that is not escaped has plain bytes only. -/
theorem isPlain_of_mem_encodeChar {c : Char} (hquote : c ≠ '"') (hslash : c ≠ '\\')
    (hlow : 0x20 ≤ c.toNat) {b : UInt8} (hb : b ∈ String.utf8EncodeChar c) : isPlain b = true := by
  by_cases hascii : c.toNat ≤ 0x7F
  · rw [Utf8.encodeChar_of_ascii hascii, List.mem_singleton] at hb
    subst hb
    have hne : ∀ (d : Char) (b : UInt8), c ≠ d → b.toNat = d.toNat →
        (UInt8.ofNat c.toNat != b) = true := by
      intro d b hd hb
      rw [bne_iff_ne]
      rintro rfl
      rw [Utf8.toNat_byte (by omega)] at hb
      exact hd (Char.toNat_inj.mp hb)
    unfold isPlain
    rw [hne '"' Byte.quote hquote rfl, hne '\\' Byte.backslash hslash rfl, Bool.true_and,
      Bool.true_and, decide_eq_true_eq, UInt8.le_iff_toNat_le, Utf8.toNat_byte (by omega)]
    exact hlow
  · exact isPlain_of_high (Utf8.high_of_mem_encodeChar (by omega) hb)

/-- An escape for a control without a letter of its own. -/
theorem escape_control {n : Nat} (h : n < 0x20) :
    ∃ x, Utf8.encodeChars ['u', '0', '0', Nat.digitChar (n / 16), Nat.digitChar (n % 16)] = x ∧
      Escape x (String.utf8EncodeChar (Char.ofNat n)) := by
  have hall : ∀ n < 0x20, ∃ q, Utf8.encodeChars
      ['u', '0', '0', Nat.digitChar (n / 16), Nat.digitChar (n % 16)] = Byte.smallU :: q ∧
      Reader.hexOf? q = some n := by
    intro n hn
    refine ⟨(Utf8.encodeChars
      ['u', '0', '0', Nat.digitChar (n / 16), Nat.digitChar (n % 16)]).tail, ?_⟩
    revert n
    decide +kernel
  obtain ⟨q, hq, hn⟩ := hall n h
  exact ⟨_, hq, .hex hn (by omega)⟩

theorem denotes_escapeChar (c : Char) {t bs : List UInt8} (ht : Denotes t bs) :
    Denotes (Utf8.encodeChars (escapeChar c) ++ t) (String.utf8EncodeChar c ++ bs) := by
  have hletter : ∀ (x : List UInt8) (b e : UInt8), Reader.letterEscape? b = some e →
      x = [Byte.backslash, b] → Denotes (x ++ t) ([e] ++ bs) := by
    rintro _ b e hb rfl
    exact .escape (.letter hb) ht
  unfold escapeChar
  split
  · next h => subst h; exact hletter _ Byte.quote Byte.quote rfl rfl
  split
  · next h => subst h; exact hletter _ Byte.backslash Byte.backslash rfl rfl
  split
  · next h => subst h; exact hletter _ Byte.smallB 0x08 rfl rfl
  split
  · next h => subst h; exact hletter _ Byte.smallF 0x0C rfl rfl
  split
  · next h => subst h; exact hletter _ Byte.smallN 0x0A rfl rfl
  split
  · next h => subst h; exact hletter _ Byte.smallR 0x0D rfl rfl
  split
  · next h => subst h; exact hletter _ Byte.smallT 0x09 rfl rfl
  split
  · next h =>
    obtain ⟨x, hx, hescape⟩ := escape_control h
    rw [Char.ofNat_toNat] at hescape
    rw [Utf8.encodeChars_cons, hx]
    exact .escape hescape ht
  · next hquote hslash _ _ _ _ _ hlow =>
    rw [Utf8.encodeChars_cons, Utf8.encodeChars_nil, List.append_nil]
    exact denotes_plain
      (fun b hb => isPlain_of_mem_encodeChar hquote hslash (by omega) hb) ht

/-- A printed string denotes the bytes of its text. -/
theorem denotes_escape (cs : List Char) :
    Denotes (Utf8.encodeChars (cs.flatMap escapeChar)) (Utf8.encodeChars cs) := by
  induction cs with
  | nil => exact .nil
  | cons c cs ih =>
    rw [List.flatMap_cons, Utf8.encodeChars_append, Utf8.encodeChars_cons]
    exact denotes_escapeChar c ih

/-- A printed string spells its text. -/
theorem spellsString_stringChars (s : String) :
    SpellsString s (Utf8.encodeChars (stringChars s)) := by
  refine ⟨_, _, ?_, denotes_escape s.toList, Utf8.decode_encode s⟩
  rw [stringChars, List.cons_append, Utf8.encodeChars_cons, Utf8.encodeChars_append]
  rfl

end Gatehouse.Json
