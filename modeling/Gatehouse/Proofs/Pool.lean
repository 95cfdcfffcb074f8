import Gatehouse.Pool

/-!
# The ledger of a pool

The counter of a pool moves by one or not at all, within the capacity and so without wrapping round,
and through every row of uses it is what was granted less what was returned (`Pool.balance`). Pools
are values: a family of pools in which each can be used and cloned is, step by step, the family of
the rows of uses that its members have behind them (`Pool.run_eq_map_after`), where a clone has
those of its original up to where it was made. So each member keeps a ledger of its own, and what is
done to one does nothing to another (`Pool.family_ledger`).
-/

namespace Gatehouse.Pool

/-! ## A slot taken and given back -/

theorem acquire?_eq_some_iff {p q : Pool} :
    p.acquire? = some q ↔ p.active < p.capacity ∧ q = { p with active := p.active + 1 } := by
  unfold acquire?
  split
  · next h => simp [UInt64.not_lt.mpr h]
  · next h => simp [UInt64.not_le.mp h, eq_comm]

theorem acquire?_eq_none_iff {p : Pool} : p.acquire? = none ↔ p.capacity ≤ p.active := by
  simp [acquire?]

/-- A slot that is taken of a pool is counted, without wrapping round. -/
theorem active_of_acquire? {p q : Pool} (h : p.acquire? = some q) :
    q.active.toNat = p.active.toNat + 1 ∧ q.capacity = p.capacity ∧ q.active ≤ q.capacity := by
  obtain ⟨hlt, rfl⟩ := acquire?_eq_some_iff.mp h
  have hbound : p.active.toNat < p.capacity.toNat := UInt64.lt_iff_toNat_lt.mp hlt
  have hcap : p.capacity.toNat < 2 ^ 64 := p.capacity.toNat_lt
  have hadd : (p.active + 1).toNat = p.active.toNat + 1 := by
    rw [UInt64.toNat_add, UInt64.toNat_one, Nat.mod_eq_of_lt (by omega)]
  refine ⟨hadd, rfl, ?_⟩
  rw [UInt64.le_iff_toNat_le]
  show (p.active + 1).toNat ≤ p.capacity.toNat
  omega

@[simp] theorem release_capacity (p : Pool) : p.release.capacity = p.capacity := by
  unfold release
  split <;> rfl

theorem active_release (p : Pool) : p.release.active.toNat = p.active.toNat - 1 := by
  unfold release
  split
  · next h =>
    have hpos : 0 < p.active.toNat := UInt64.lt_iff_toNat_lt.mp h
    have hone : (1 : UInt64) ≤ p.active := UInt64.le_iff_toNat_le.mpr hpos
    exact UInt64.toNat_sub_of_le _ _ hone
  · next h =>
    have hzero : p.active.toNat = 0 := by
      have := UInt64.le_iff_toNat_le.mp (UInt64.not_lt.mp h)
      simpa using this
    omega

/-- Within its capacity a pool tells how many slots are free without wrapping round. -/
theorem toNat_available {p : Pool} (h : p.active ≤ p.capacity) :
    p.available.toNat = p.capacity.toNat - p.active.toNat :=
  UInt64.toNat_sub_of_le _ _ h

/-! ## Rows of uses -/

/-- One use of a pool. -/
inductive Use where
  /-- A slot is asked for. -/
  | acquire
  /-- A slot is given back. -/
  | release
deriving DecidableEq, Repr

/-- The pool behind a use. -/
def use (p : Pool) : Use → Pool
  | .acquire => p.acquire?.getD p
  | .release => p.release

/-- The pool behind a row of uses. -/
def after (p : Pool) (uses : List Use) : Pool :=
  uses.foldl use p

/-- How many slots are granted in a row of uses. -/
def granted (p : Pool) : List Use → Nat
  | [] => 0
  | u :: uses => (if u = .acquire ∧ p.acquire?.isSome then 1 else 0) + (p.use u).granted uses

/-- How many releases in a row of uses find a slot that is taken. -/
def returned (p : Pool) : List Use → Nat
  | [] => 0
  | u :: uses => (if u = .release ∧ 0 < p.active then 1 else 0) + (p.use u).returned uses

variable {p : Pool}

theorem isSome_acquire?_iff : p.acquire?.isSome ↔ p.active.toNat < p.capacity.toNat := by
  rw [← UInt64.lt_iff_toNat_lt, ← UInt64.not_le, ← acquire?_eq_none_iff, Option.isSome_iff_ne_none]

/-- What an acquisition does: with a slot free it counts one more, otherwise it changes nothing. -/
theorem use_acquire (p : Pool) : (p.use .acquire).capacity = p.capacity ∧
    (p.use .acquire).active.toNat =
      p.active.toNat + (if p.active.toNat < p.capacity.toNat then 1 else 0) := by
  cases h : p.acquire? with
  | none =>
    have hfull : ¬ p.active.toNat < p.capacity.toNat := by
      rw [← isSome_acquire?_iff, h]
      exact Bool.false_ne_true
    simp [use, h, hfull]
  | some q =>
    have hfree : p.active.toNat < p.capacity.toNat := by
      rw [← isSome_acquire?_iff, h]
      rfl
    obtain ⟨hactive, hcapacity, -⟩ := active_of_acquire? h
    simp [use, h, hfree, hactive, hcapacity]

/-- A use keeps the pool within its capacity, and the counter is balanced. -/
theorem balance_use (h : p.active.toNat ≤ p.capacity.toNat) (u : Use) :
    (p.use u).capacity = p.capacity ∧ (p.use u).active.toNat ≤ p.capacity.toNat ∧
      (p.use u).active.toNat + (if u = .release ∧ 0 < p.active then 1 else 0) =
        p.active.toNat + (if u = .acquire ∧ p.acquire?.isSome then 1 else 0) := by
  cases u with
  | acquire =>
    obtain ⟨hcapacity, hactive⟩ := p.use_acquire
    refine ⟨hcapacity, ?_, ?_⟩
    · rw [hactive]
      split <;> omega
    · simp [hactive, isSome_acquire?_iff]
  | release =>
    have hactive : (p.use .release).active.toNat = p.active.toNat - 1 := active_release p
    have hpos : 0 < p.active ↔ 0 < p.active.toNat := UInt64.lt_iff_toNat_lt
    refine ⟨release_capacity p, by omega, ?_⟩
    simp only [hactive, hpos, true_and, reduceCtorEq, false_and, ↓reduceIte]
    split <;> omega

theorem balance (h : p.active.toNat ≤ p.capacity.toNat) (uses : List Use) :
    (p.after uses).capacity = p.capacity ∧ (p.after uses).active.toNat ≤ p.capacity.toNat ∧
      (p.after uses).active.toNat + p.returned uses = p.active.toNat + p.granted uses := by
  induction uses generalizing p with
  | nil => exact ⟨rfl, h, rfl⟩
  | cons u uses ih =>
    obtain ⟨hcapacity, hwithin, hcount⟩ := balance_use h u
    obtain ⟨hcapacity', hwithin', hcount'⟩ := ih (p := p.use u) (by rwa [hcapacity])
    rw [hcapacity] at hcapacity' hwithin'
    refine ⟨hcapacity', hwithin', ?_⟩
    simp only [after, List.foldl_cons, granted, returned] at hcount' ⊢
    omega

/-- Surplus releases take nothing off an unused pool. -/
theorem active_after_releases (p : Pool) (k : Nat) :
    (p.after (List.replicate k .release)).active.toNat = p.active.toNat - k := by
  induction k generalizing p with
  | zero => rfl
  | succ k ih =>
    have hstep : (p.use .release).active.toNat = p.active.toNat - 1 := active_release p
    have hrest := ih (p.use .release)
    rw [hstep] at hrest
    rw [List.replicate_succ]
    change ((p.use .release).after _).active.toNat = _
    omega

/-- A run of acquisitions is granted the free slots and no more. -/
theorem granted_acquires (p : Pool) (k : Nat) :
    p.granted (List.replicate k .acquire) = min k (p.capacity.toNat - p.active.toNat) := by
  induction k generalizing p with
  | zero => simp [granted]
  | succ k ih =>
    obtain ⟨hcapacity, hactive⟩ := p.use_acquire
    rw [List.replicate_succ, granted, ih, hcapacity, hactive]
    simp only [isSome_acquire?_iff, true_and]
    split <;> omega

/-! ## Families -/

/-- A step on a family of pools, in which each is known by its place. -/
inductive Step where
  /-- The pool at a place is used. -/
  | use (place : Nat) (u : Use)
  /-- The pool at a place is cloned, and the clone takes the next place. -/
  | clone (place : Nat)
deriving DecidableEq, Repr

/-- The place whose pool a step uses. -/
def Step.usedPlace? : Step → Option Nat
  | .use place _ => some place
  | .clone _ => none

section Families

variable {α β : Type}

/-- A family behind a step, where `f` is what a use makes of a member. -/
def Step.perform (f : α → Use → α) (family : List α) : Step → List α
  | .use place u => family.modify place (f · u)
  | .clone place => family ++ family[place]?.toList

/-- A family behind steps. -/
def run (f : α → Use → α) (family : List α) (steps : List Step) : List α :=
  steps.foldl (Step.perform f) family

/-- The rows of uses that the members of a family have behind them, when it started with one. -/
def histories (steps : List Step) : List (List Use) :=
  run (fun uses u => uses ++ [u]) [[]] steps

variable {f : α → Use → α} {g : β → Use → β} {h : α → β}

theorem map_perform (hfg : ∀ a u, h (f a u) = g (h a) u) (family : List α) (st : Step) :
    (st.perform f family).map h = st.perform g (family.map h) := by
  cases st with
  | use place u =>
    refine List.ext_getElem? fun i => ?_
    simp only [Step.perform, List.getElem?_map, List.getElem?_modify, Option.map_eq_map,
      Option.map_map]
    congr 1
    funext a
    by_cases hi : place = i <;> simp [hi, hfg]
  | clone place =>
    simp only [Step.perform, List.map_append, List.getElem?_map]
    cases family[place]? <;> rfl

theorem map_run (hfg : ∀ a u, h (f a u) = g (h a) u) (family : List α) (steps : List Step) :
    (run f family steps).map h = run g (family.map h) steps := by
  induction steps generalizing family with
  | nil => rfl
  | cons st steps ih =>
    simp only [run, List.foldl_cons] at ih ⊢
    rw [ih, map_perform hfg]

/-- A step keeps every member in place, but for the one that it uses. -/
theorem getElem?_perform (family : List α) {st : Step} {i : Nat} (hi : i < family.length)
    (hst : st.usedPlace? ≠ some i) : (st.perform f family)[i]? = family[i]? := by
  cases st with
  | use place u =>
    have hne : place ≠ i := fun heq => hst (congrArg some heq)
    simp [Step.perform, hne]
  | clone place => simp [Step.perform, List.getElem?_append_left hi]

theorem length_le_perform (family : List α) (st : Step) :
    family.length ≤ (st.perform f family).length := by
  cases st <;> simp [Step.perform]

theorem getElem?_run (family : List α) {steps : List Step} {i : Nat} (hi : i < family.length)
    (hsteps : ∀ st ∈ steps, st.usedPlace? ≠ some i) : (run f family steps)[i]? = family[i]? := by
  induction steps generalizing family with
  | nil => rfl
  | cons st steps ih =>
    obtain ⟨hst, hsteps⟩ := List.forall_mem_cons.mp hsteps
    rw [run, List.foldl_cons, ← getElem?_perform (f := f) family hi hst]
    exact ih _ (Nat.lt_of_lt_of_le hi (length_le_perform family st)) hsteps

end Families

/-! ## Main statement -/

theorem after_concat (p : Pool) (uses : List Use) (u : Use) :
    p.after (uses ++ [u]) = (p.after uses).use u := by
  simp only [after, List.foldl_append, List.foldl_cons, List.foldl_nil]

/-- Each member of a family is what its own row of uses makes of the first pool. -/
theorem run_eq_map_after (p : Pool) (steps : List Step) :
    run use [p] steps = (histories steps).map p.after := by
  rw [histories, map_run p.after_concat]
  rfl

theorem toNat_capacity_ofCapacity (capacity : UInt64) :
    (ofCapacity capacity).capacity.toNat = max capacity.toNat 1 := by
  unfold ofCapacity
  split
  · next h => simp [h]
  · next h =>
    have hpos : capacity.toNat ≠ 0 := fun hzero => h (UInt64.toNat_inj.mp hzero)
    show capacity.toNat = max capacity.toNat 1
    omega

/-- The ledger of a family of pools. However a new pool and its clones are used and cloned, each has
a row of uses behind it, and with that row: the capacity is the one asked for, and one if none was;
what is taken stays within it, and with what is free makes it up; what is taken is what was granted
less what was returned. A slot is granted exactly if not all are taken, and counts one more; a
release counts one less as far as there is one. Nothing else changes. After any number of releases,
surplus ones too, a run of acquisitions is granted the free slots and no more. A clone starts as its
original, and a member is as it was until it is used itself. -/
theorem family_ledger (capacity : UInt64) (steps : List Step) :
    let fresh := ofCapacity capacity
    let family := run use [fresh] steps
    family = (histories steps).map fresh.after ∧
    (∀ uses ∈ histories steps,
      let p := fresh.after uses
      p.capacity.toNat = max capacity.toNat 1 ∧
      p.active.toNat ≤ p.capacity.toNat ∧
      p.active.toNat + p.available.toNat = p.capacity.toNat ∧
      p.active.toNat + fresh.returned uses = fresh.granted uses ∧
      (p.acquire?.isSome ↔ p.active.toNat < p.capacity.toNat) ∧
      (p.use .acquire).active.toNat = p.active.toNat + (if p.acquire?.isSome then 1 else 0) ∧
      (p.use .release).active.toNat = p.active.toNat - 1 ∧
      (∀ u, (p.use u).capacity = p.capacity) ∧
      ∀ j k, (p.after (List.replicate j .release)).granted (List.replicate k .acquire) =
        min k (p.capacity.toNat - (p.active.toNat - j))) ∧
    (∀ i < family.length, (Step.perform use family (.clone i))[family.length]? = family[i]?) ∧
    ∀ i < family.length, ∀ more, (∀ st ∈ more, st.usedPlace? ≠ some i) →
      (run use family more)[i]? = family[i]? := by
  intro fresh family
  refine ⟨run_eq_map_after fresh steps, fun uses _ => ?_, fun i hi => ?_,
    fun i hi more hmore => getElem?_run family hi hmore⟩
  · intro p
    have hfresh : fresh.active.toNat = 0 := rfl
    obtain ⟨hcapacity, hwithin, hcount⟩ := balance (p := fresh) (Nat.zero_le _) uses
    rw [← hcapacity] at hwithin
    refine ⟨?_, hwithin, ?_, ?_, isSome_acquire?_iff, ?_, active_release p,
      fun u => (balance_use hwithin u).1, fun j k => ?_⟩
    · rw [← toNat_capacity_ofCapacity]
      exact congrArg UInt64.toNat hcapacity
    · rw [toNat_available (UInt64.le_iff_toNat_le.mpr hwithin)]
      exact Nat.add_sub_cancel' hwithin
    · rwa [hfresh, Nat.zero_add] at hcount
    · simp only [isSome_acquire?_iff]
      exact (p.use_acquire).2
    · have hreleases : (p.after (List.replicate j .release)).capacity = p.capacity :=
        (balance hwithin _).1
      rw [granted_acquires, hreleases, active_after_releases]
  · simp [Step.perform, List.getElem?_eq_getElem hi]

/-- A pool of no slots, which has one. It is released and cloned unused; the clone is asked for two
slots, gives one back and is cloned in turn. -/
theorem family_ledger_surplus_release :
    let start : List Step := [.use 0 .release, .clone 0]
    let more : List Step :=
      [.use 1 .acquire, .use 1 .acquire, .use 1 .release, .clone 1, .use 2 .acquire]
    let uses : List Use := [.release, .acquire, .acquire, .release, .acquire]
    let family := run use [ofCapacity 0] start
    (uses ∈ histories (start ++ more) ∧
      ((ofCapacity 0).after uses).active.toNat + (ofCapacity 0).returned uses =
        (ofCapacity 0).granted uses) ∧
    0 < family.length ∧ (∀ st ∈ more, st.usedPlace? ≠ some 0) ∧
    (run use family more)[0]? = family[0]? := by
  intro start more uses family
  have huses : uses ∈ histories (start ++ more) := by decide
  have hlength : 0 < family.length := by decide
  have hmore : ∀ st ∈ more, st.usedPlace? ≠ some 0 := by decide
  obtain ⟨-, -, -, hcount, -⟩ := (family_ledger 0 (start ++ more)).2.1 uses huses
  exact ⟨⟨huses, hcount⟩, hlength, hmore, (family_ledger 0 start).2.2.2 0 hlength more hmore⟩

end Gatehouse.Pool
