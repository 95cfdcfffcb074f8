import Gatehouse.Proofs.Json.Grammar

/-!
# How a reader ends

`Ends r c good bad` says how a reader ends from a cursor: with a result and a cursor that are
`good`, or halted at a cursor that is `bad`. What a reader takes, what it cannot take and where it
comes to a halt are all statements of this form, and the laws below take one apart along the text of
the reader. A reader that cannot halt has `bad` empty; of a reader that is only known not to give
wrong results `bad` is everything.
-/

namespace Gatehouse.Json

/-! ## Cursors -/

namespace Cursor

@[simp] theorem rest_start (bytes : List UInt8) : (start bytes).rest = bytes := rfl

theorem rest_past (line column : Nat) (b : UInt8) (rest : List UInt8) :
    (past line column b rest).rest = rest := by
  unfold past
  split <;> rfl

@[simp] theorem rest_step (c : Cursor) : c.step.rest = c.rest.tail := by
  unfold step
  split
  · next h => simp [h]
  · next h => rw [rest_past, h, List.tail_cons]

theorem rest_of_head? {c : Cursor} {b : UInt8} (h : c.rest.head? = some b) :
    c.rest = b :: c.step.rest := by
  obtain ⟨t, ht⟩ := List.head?_eq_some_iff.mp h
  rw [rest_step, ht, List.tail_cons]

@[simp] theorem rest_advance (n : Nat) (c : Cursor) : (advance n c).rest = c.rest.drop n := by
  induction n generalizing c with
  | zero => rfl
  | succ n ih => rw [advance, ih, rest_step, List.drop_tail]

theorem rest_dropBlanks (line column : Nat) (bytes : List UInt8) :
    (dropBlanks line column bytes).rest = bytes.dropWhile Byte.isBlank := by
  induction bytes generalizing line column with
  | nil => rfl
  | cons b rest ih =>
    unfold dropBlanks
    by_cases hb : Byte.isBlank b = true
    · rw [if_pos hb, List.dropWhile_cons_of_pos hb]
      split
      · exact ih _ _
      · exact ih _ _
    · rw [if_neg hb, List.dropWhile_cons_of_neg hb]

@[simp] theorem rest_skipBlanks (c : Cursor) :
    c.skipBlanks.rest = c.rest.dropWhile Byte.isBlank :=
  rest_dropBlanks _ _ _

end Cursor

namespace Reader

variable {α β : Type} {c : Cursor}

/-- A reader ends well, with a result and a cursor, or badly, halted at a cursor. -/
def Ends (r : Reader α) (c : Cursor) (good : α → Cursor → Prop) (bad : Cursor → Prop) : Prop :=
  match r c with
  | .ok a d => good a d
  | .error _ d => bad d

section Rules

variable {r : Reader α} {good good' : α → Cursor → Prop} {bad bad' : Cursor → Prop}

theorem Ends.mono (h : Ends r c good bad) (hgood : ∀ a d, good a d → good' a d)
    (hbad : ∀ d, bad d → bad' d) : Ends r c good' bad' := by
  unfold Ends at h ⊢
  split
  · next heq =>
    rw [heq] at h
    exact hgood _ _ h
  · next heq =>
    rw [heq] at h
    exact hbad _ h

theorem Ends.imp (h : Ends r c good bad) (hgood : ∀ a d, good a d → good' a d) :
    Ends r c good' bad :=
  h.mono hgood fun _ h => h

/-- What is good about a reader that gave a result. -/
theorem Ends.good_of_ok (h : Ends r c good bad) {a : α} {d : Cursor} (hr : r c = .ok a d) :
    good a d := by
  unfold Ends at h
  rw [hr] at h
  exact h

/-- A reader that cannot halt gives a result. -/
theorem Ends.exists_ok (h : Ends r c good fun _ => False) : ∃ a d, r c = .ok a d ∧ good a d := by
  unfold Ends at h
  split at h
  · next heq => exact ⟨_, _, heq, h⟩
  · exact h.elim

end Rules

/-! ## The laws -/

section Laws

variable {good : α → Cursor → Prop} {bad : Cursor → Prop}

@[simp] theorem ends_pure {a : α} : Ends (pure a) c good bad ↔ good a c := Iff.rfl

@[simp] theorem ends_bind {r : Reader β} {f : β → Reader α} :
    Ends (r >>= f) c good bad ↔ Ends r c (fun b d => Ends (f b) d good bad) bad := by
  show (match EStateM.bind r f c with | .ok a d => good a d | .error _ d => bad d) ↔ _
  unfold EStateM.bind Ends
  cases r c <;> rfl

/-- What a first reader gives is good enough for the next one to go on with. -/
theorem Ends.bind {mid : β → Cursor → Prop} {r : Reader β} {f : β → Reader α}
    (h : Ends r c mid bad) (hf : ∀ b d, mid b d → Ends (f b) d good bad) :
    Ends (r >>= f) c good bad :=
  ends_bind.mpr (h.imp hf)

@[simp] theorem ends_map {r : Reader β} {f : β → α} :
    Ends (f <$> r) c good bad ↔ Ends r c (fun b d => good (f b) d) bad := by
  show (match EStateM.map f r c with | .ok a d => good a d | .error _ d => bad d) ↔ _
  unfold EStateM.map Ends
  cases r c <;> rfl

@[simp] theorem ends_stop {fault : Fault} : Ends (stop fault) c good bad ↔ bad c := Iff.rfl

@[simp] theorem ends_stopAhead {fault : Fault} : Ends (stopAhead fault) c good bad ↔ bad c :=
  Iff.rfl

@[simp] theorem ends_unplaced {fault : Fault} : Ends (unplaced fault) c good bad ↔ bad c := Iff.rfl

@[simp] theorem ends_stopBehind {fault : Fault} {n : Nat} :
    Ends (stopBehind fault n) c good bad ↔ bad c := Iff.rfl

@[simp] theorem ends_get {good : Cursor → Cursor → Prop} :
    Ends get c good bad ↔ good c c := Iff.rfl

@[simp] theorem ends_modify {good : PUnit → Cursor → Prop} {f : Cursor → Cursor} :
    Ends (modify f) c good bad ↔ good ⟨⟩ (f c) := Iff.rfl

@[simp] theorem ends_peek? {good : Option UInt8 → Cursor → Prop} :
    Ends peek? c good bad ↔ good c.rest.head? c := Iff.rfl

@[simp] theorem ends_skip {good : Unit → Cursor → Prop} :
    Ends skip c good bad ↔ good () c.step := Iff.rfl

@[simp] theorem ends_next? {good : Option UInt8 → Cursor → Prop} :
    Ends next? c good bad ↔ good c.rest.head? c.step := Iff.rfl

@[simp] theorem ends_ahead? {good : Option UInt8 → Cursor → Prop} :
    Ends ahead? c good bad ↔ good (c.rest.dropWhile Byte.isBlank).head? c.skipBlanks := by
  rw [← Cursor.rest_skipBlanks]
  rfl

/-- What stands behind the blanks is what comes next. -/
theorem ends_ahead?_of {w t : List UInt8} {b : UInt8} (hw : Blanks w)
    (hb : Byte.isBlank b = false) (h : c.rest = w ++ b :: t)
    {good : Option UInt8 → Cursor → Prop} (hgood : ∀ d, d.rest = b :: t → good (some b) d) :
    Ends ahead? c good bad := by
  have hrest : c.skipBlanks.rest = b :: t := by
    rw [Cursor.rest_skipBlanks, h, hw.dropWhile_cons hb]
  rw [ends_ahead?, ← Cursor.rest_skipBlanks, hrest]
  exact hgood _ hrest

/-- Whatever comes next stands behind blanks. -/
theorem ends_ahead?_intro {good : Option UInt8 → Cursor → Prop}
    (hgood : ∀ w d, Blanks w → c.rest = w ++ d.rest →
      (∀ b, d.rest.head? = some b → Byte.isBlank b = false) → good d.rest.head? d) :
    Ends ahead? c good bad := by
  obtain ⟨w, hw, hrest⟩ := exists_blanks c.rest
  rw [ends_ahead?, ← Cursor.rest_skipBlanks]
  refine hgood w c.skipBlanks hw (by rw [Cursor.rest_skipBlanks]; exact hrest) ?_
  intro b hb
  rw [Cursor.rest_skipBlanks] at hb
  have hhead := List.head?_dropWhile_not Byte.isBlank c.rest
  rw [hb] at hhead
  exact hhead

@[simp] theorem ends_placed {r : Reader α} : Ends (placed r) c good bad ↔ Ends r c good bad := by
  unfold Ends placed
  split
  · next h =>
    split at h
    · cases h
    · rw [h]
  · next h =>
    split at h
    · next hr =>
      cases h
      rw [hr]
    · rw [h]

/-- The end is read whether or not the body halted; a result needs both. -/
@[simp] theorem ends_enclosed {body : Reader α} {close : Reader Unit} :
    Ends (enclosed body close) c good bad ↔
      Ends body c (fun a d => Ends close d (fun _ e => good a e) bad)
        (fun d => Ends close d (fun _ e => bad e) bad) := by
  unfold Ends enclosed
  cases body c with
  | ok a d => cases hclose : close d <;> simp only [hclose]
  | error halt d => cases hclose : close d <;> simp only [hclose]

end Laws

theorem ends_trivial (r : Reader α) : Ends r c (fun _ _ => True) fun _ => True := by
  unfold Ends
  split <;> trivial

/-- A value of another kind is never read. -/
theorem ends_mismatch {expected : String} {good : α → Cursor → Prop} :
    Ends (mismatch expected) c good fun _ => True := by
  have hunplaced : ∀ {β : Type} (r : Reader β) (fault : β → Fault) (d : Cursor),
      Ends (r >>= fun b => unplaced (fault b)) d good fun _ => True := by
    intro β r fault d
    rw [ends_bind]
    exact ends_trivial r
  unfold mismatch
  rw [ends_placed, ends_bind, ends_peek?]
  split
  · rw [ends_bind, ends_skip]
    exact hunplaced _ _ _
  · rw [ends_bind, ends_skip]
    exact hunplaced _ _ _
  · rw [ends_bind, ends_skip]
    exact hunplaced _ _ _
  · rw [ends_bind, ends_skip]
    exact hunplaced _ _ _
  · rw [ends_bind, ends_skip]
    exact hunplaced _ _ _
  · trivial
  · trivial
  · split
    · exact hunplaced _ _ _
    · trivial

/-! ## Whole texts -/

/-- The reader of a whole text ends well when the reader does and leaves nothing but blanks. -/
theorem run_eq_ok {r : Reader α} {bytes : List UInt8} {a : α} :
    r.run bytes = .ok a ↔
      ∃ d, r (Cursor.start bytes) = .ok a d ∧ d.rest.dropWhile Byte.isBlank = [] := by
  unfold run
  simp only [bind, EStateM.bind]
  cases hr : r (Cursor.start bytes) with
  | error halt d =>
    obtain ⟨fault, place⟩ := halt
    cases place <;> simp
  | ok b d =>
    have hahead : ahead? d = .ok (d.rest.dropWhile Byte.isBlank).head? d.skipBlanks := by
      rw [← Cursor.rest_skipBlanks]
      rfl
    simp only [hahead, EStateM.Result.ok.injEq]
    cases hd : d.rest.dropWhile Byte.isBlank with
    | nil =>
      show Except.ok b = Except.ok a ↔ _
      constructor
      · rintro ⟨⟩
        exact ⟨d, ⟨rfl, rfl⟩, hd⟩
      · rintro ⟨_, ⟨rfl, rfl⟩, -⟩
        rfl
    | cons x t =>
      show Except.error _ = Except.ok a ↔ _
      constructor
      · rintro ⟨⟩
      · rintro ⟨_, ⟨rfl, rfl⟩, hnil⟩
        rw [hd] at hnil
        cases hnil

end Reader

end Gatehouse.Json
