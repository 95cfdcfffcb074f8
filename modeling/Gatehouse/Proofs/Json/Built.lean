import Gatehouse.Proofs.Json.Parts
import Gatehouse.Proofs.Json.ObjectText

/-!
# What the reader builds

`Keeps` lists what has to be shown of a property for it to hold of every value that is read: one
condition for words, numbers and strings, one for each kind of container and one for embedded texts
(`ends_valueWithin_of_keeps`). Every value that is read is proper (`proper_of_parse`), and where the
marker has no meaning it is no deeper than the reader has room for (`within_of_plainValue`).
-/

namespace Gatehouse.Json

namespace Reader

/-- A property of values in some room holds of whatever the reader of values puts together. -/
structure Keeps (parseText : Option (String → Except Error Value)) (good : Nat → Value → Prop) :
    Prop where
  atom {room : Nat} {v : Value} (hv : v.isContainer = false) (hproper : v.IsProper) : good room v
  list {room : Nat} {vs : List Value} (h : ∀ v ∈ vs, good room v) : good (room + 1) (.array vs)
  object {room : Nat} {d : Dictionary Value} (hd : d.Ascending) (h : ∀ m ∈ d, good room m.2) :
    good (room + 1) (.object d)
  embedded {room : Nat} {read : String → Except Error Value} {s : String} {v : Value}
    (hread : read ∈ parseText) (h : read s = .ok v) : good room v

variable {α σ : Type} {c : Cursor}

/-! ## Numbers -/

theorem isProper_wholeNumber {positive : Bool} {m : Nat} :
    (Value.number (wholeNumber positive m)).IsProper := by
  unfold wholeNumber
  split
  · trivial
  · split
    · trivial
    · next h =>
      have hlow : m ≠ 0 ∧ m ≤ 0x8000000000000000 := by omega
      show Int64.ofInt (-(m : Int)) < 0
      rw [Int64.lt_iff_toInt_lt, toInt_ofInt_neg hlow.2]
      show -(m : Int) < 0
      omega

theorem ends_numberBody_proper {positive : Bool} :
    Ends (numberBody positive) c (fun n _ => (Value.number n).IsProper) fun _ => True := by
  apply ends_numberBody.imp
  rintro n d (⟨x, rfl⟩ | ⟨m, -, rfl, -⟩)
  · trivial
  · exact isProper_wholeNumber

/-! ## Loops -/

/-- What holds of every item that is read holds of all items of a list. -/
theorem ends_itemsUpTo_all {item : Reader α} {good : α → Prop}
    (hitem : ∀ c, Ends item c (fun a _ => good a) fun _ => True) (n : Nat) (first : Bool) :
    Ends (itemsUpTo item n first) c (fun as _ => ∀ a ∈ as, good a) fun _ => True := by
  induction n generalizing c first with
  | zero => nofun
  | succ n ih =>
    rw [itemsUpTo]
    apply Ends.bind (ends_trivial _)
    intro more d _
    split
    · apply Ends.bind (hitem d)
      intro a d1 ha
      apply Ends.bind (ih false)
      intro as d2 has
      exact List.forall_mem_cons.mpr ⟨ha, has⟩
    · nofun

/-- What every member keeps, all members of an object keep. -/
theorem ends_membersUpTo_keep {member : String → σ → Reader σ} {good : σ → Prop}
    (hmember : ∀ k s c, good s → Ends (member k s) c (fun s _ => good s) fun _ => True) (n : Nat)
    (first : Bool) {s : σ} (hs : good s) :
    Ends (membersUpTo member n first s) c (fun s _ => good s) fun _ => True := by
  induction n generalizing c first s with
  | zero => exact hs
  | succ n ih =>
    rw [membersUpTo]
    apply Ends.bind (ends_trivial _)
    intro more d _
    split
    · apply Ends.bind (ends_trivial _)
      intro k d1 _
      apply Ends.bind (hmember k s d1 hs)
      intro s' d2 hs'
      exact ih false hs'
    · exact hs

/-! ## Values -/

/-- The members so far are in order, and something holds of each value. -/
def Gathered (good : Value → Prop) (d : Dictionary Value) : Prop :=
  d.Ascending ∧ ∀ m ∈ d, good m.2

section Values

variable {parseText : Option (String → Except Error Value)} {good : Nat → Value → Prop}
  {room : Nat} {item : Reader Value}

theorem ends_valueMember_keep
    (hitem : ∀ c, Ends item c (fun v _ => good room v) fun _ => True) (k : String)
    (d : Dictionary Value) (c : Cursor) (hd : Gathered (good room) d) :
    Ends (valueMember item k d) c (fun d _ => Gathered (good room) d) fun _ => True := by
  unfold valueMember
  apply Ends.bind (ends_trivial _)
  intro _ c1 _
  apply Ends.bind (hitem c1)
  intro v c2 hv
  refine ⟨hd.1.insert k v, ?_⟩
  intro m hm
  cases Dictionary.mem_insert hm with
  | inl heq => rw [heq]; exact hv
  | inr hmem => exact hd.2 m hmem

variable (hkeeps : Keeps parseText good)
  (hitem : ∀ c, Ends item c (fun v _ => good room v) fun _ => True)

include hkeeps

theorem ends_embedded_keep {read : String → Except Error Value} (hread : read ∈ parseText) :
    Ends (embedded read) c (fun v _ => good (room + 1) v) fun _ => True := by
  unfold embedded
  apply Ends.bind (ends_trivial _)
  intro _ c1 _
  apply Ends.bind (ends_trivial _)
  intro s c2 _
  split
  · next v hv => exact hkeeps.embedded hread hv
  · trivial

include hitem

theorem ends_objectBody_keep :
    Ends (objectBody parseText item) c (fun v _ => good (room + 1) v) fun _ => True := by
  unfold objectBody
  apply Ends.bind (ends_trivial _)
  intro more c1 _
  split
  · apply Ends.bind (ends_trivial _)
    intro k c2 _
    split
    · exact ends_embedded_keep hkeeps rfl
    · have hmember : ∀ k d c, Gathered (good room) d →
          Ends (valueMember item k d) c (fun d _ => Gathered (good room) d) fun _ => True :=
        ends_valueMember_keep hitem
      apply Ends.bind (hmember k [] c2 ⟨.nil, nofun⟩)
      intro d c3 hd
      rw [ends_bind, ends_get]
      apply Ends.bind (ends_membersUpTo_keep hmember _ false hd)
      intro d' c4 hd'
      exact hkeeps.object hd'.1 hd'.2
  · exact hkeeps.object .nil nofun

end Values

/-- The first byte of a value decides which condition is needed. -/
theorem ends_valueFrom_of_keeps {parseText : Option (String → Except Error Value)}
    {good : Nat → Value → Prop} {room : Nat} (hkeeps : Keeps parseText good)
    (hinner : ∀ left, room = left + 1 →
      ∀ c, Ends (valueWithin parseText left) c (fun v _ => good left v) fun _ => True)
    (b : Option UInt8) :
    Ends (valueFrom parseText (innerWithin parseText room) b) c (fun v _ => good room v)
      fun _ => True := by
  have hword : ∀ {r : Reader Unit} {v : Value}, v.isContainer = false → v.IsProper →
      Ends (skip >>= fun _ => r >>= fun _ => pure v) c (fun v _ => good room v)
        fun _ => True := by
    intro r v hv hproper
    rw [ends_bind, ends_skip]
    exact .bind (ends_trivial r) fun _ _ _ => hkeeps.atom hv hproper
  have hnumber : ∀ {positive : Bool} {c : Cursor},
      Ends (numberBody positive >>= fun n => pure (.number n)) c (fun v _ => good room v)
        fun _ => True := by
    intro positive c
    exact .bind ends_numberBody_proper fun _ _ hn => hkeeps.atom rfl hn
  unfold valueFrom
  split
  · trivial
  · exact hword rfl trivial
  · exact hword rfl trivial
  · exact hword rfl trivial
  · rw [ends_bind, ends_skip]
    exact hnumber
  · rw [ends_bind, ends_skip]
    exact .bind (ends_trivial _) fun _ _ _ => hkeeps.atom rfl trivial
  · cases room with
    | zero => trivial
    | succ left =>
      show Ends (skip >>= fun _ => list (items (valueWithin parseText left)) >>= fun vs =>
        pure (Value.array vs)) c _ _
      rw [ends_bind, ends_skip, ends_bind]
      unfold list items
      rw [ends_enclosed, ends_bind, ends_get]
      refine (ends_itemsUpTo_all (hinner left rfl) _ true).mono ?_ fun _ _ => ends_trivial _
      intro vs d hvs
      exact (ends_trivial _).imp fun _ _ _ => hkeeps.list hvs
  · cases room with
    | zero => trivial
    | succ left =>
      show Ends (skip >>= fun _ => object (objectBody parseText (valueWithin parseText left))) c _ _
      rw [ends_bind, ends_skip]
      unfold object
      rw [ends_enclosed]
      refine (ends_objectBody_keep hkeeps (hinner left rfl)).mono ?_ fun _ _ => ends_trivial _
      intro v d hv
      exact (ends_trivial _).imp fun _ _ _ => hv
  · split
    · exact hnumber
    · trivial

/-- Whatever is kept holds of every value that is read. -/
theorem ends_valueWithin_of_keeps {parseText : Option (String → Except Error Value)}
    {good : Nat → Value → Prop} (hkeeps : Keeps parseText good) (room : Nat) (c : Cursor) :
    Ends (valueWithin parseText room) c (fun v _ => good room v) fun _ => True := by
  induction room generalizing c with
  | zero =>
    have hnone : ∀ left, 0 = left + 1 → ∀ c, Ends (valueWithin parseText left) c
        (fun v _ => good left v) fun _ => True := fun _ h => nomatch h
    rw [valueWithin_eq]
    exact ends_valueWith_intro fun _ _ _ _ _ _ => ends_valueFrom_of_keeps hkeeps hnone _
  | succ room ih =>
    rw [valueWithin_eq]
    refine ends_valueWith_intro fun _ _ _ _ _ _ => ends_valueFrom_of_keeps hkeeps ?_ _
    rintro _ ⟨⟩
    exact ih

theorem good_of_run {parseText : Option (String → Except Error Value)}
    {good : Nat → Value → Prop} (hkeeps : Keeps parseText good) {room : Nat} {bytes : List UInt8}
    {v : Value} (h : (valueWithin parseText room).run bytes = .ok v) : good room v := by
  obtain ⟨d, hread, -⟩ := run_eq_ok.mp h
  exact (ends_valueWithin_of_keeps hkeeps room _).good_of_ok hread

/-! ## What is kept -/

theorem forall_parts_object {p : Value → Prop} {d : Dictionary Value} (h : ∀ m ∈ d, p m.2) :
    ∀ w ∈ (Value.object d).parts, p w := by
  intro w hw
  obtain ⟨m, hm, rfl⟩ := List.mem_map.mp hw
  exact h m hm

theorem keeps_proper {parseText : Option (String → Except Error Value)}
    (h : ∀ read ∈ parseText, ∀ s v, read s = .ok v → v.Proper) :
    Keeps parseText fun _ v => v.Proper where
  atom := .atom
  list hvs := .intro trivial hvs
  object hd hms := .intro hd (forall_parts_object hms)
  embedded hread hok := h _ hread _ _ hok

theorem keeps_within : Keeps none fun room v => v.Within room where
  atom hv _ := .atom hv
  list hvs := .inside hvs
  object _ hms := .inside (forall_parts_object hms)
  embedded hread _ := nomatch hread

theorem proper_of_parseNested (n : Nat) {s : String} {v : Value} (h : parseNested n s = .ok v) :
    v.Proper := by
  induction n generalizing s v with
  | zero =>
    have hkeeps : Keeps none fun _ v => v.Proper := keeps_proper fun _ hread => nomatch hread
    exact good_of_run hkeeps h
  | succ n ih =>
    refine good_of_run (keeps_proper ?_) h
    rintro _ ⟨⟩ s v hv
    exact ih hv

end Reader

open Reader

/-- What is read has its keys in ascending order and its negative numbers below zero. -/
theorem proper_of_parse {s : String} {v : Value} (h : parse s = .ok v) : v.Proper := by
  rw [parse_eq] at h
  exact proper_of_parseNested _ h

/-- Where the marker has no meaning, what is read is no deeper than there is room. -/
theorem within_of_plainValue {room : Nat} {bytes : List UInt8} {v : Value}
    (h : (plainValue room).run bytes = .ok v) : v.Within room :=
  good_of_run keeps_within h

end Gatehouse.Json
