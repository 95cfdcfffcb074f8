import Gatehouse.Connection.Lifecycle
import Gatehouse.Proofs.Pool

/-!
# The ledger of a link

Whoever passes the lock of a connection leaves the link as it is, takes one slot for a link that
holds none, or gives back the slot of a link that holds one (`Link.Move`). A history is a walk when
each state that it gives the link comes by a move from the state before. The ledger compares a link
with the pool that it was made on (`Link.Ledger`): every slot beyond those that were taken already
is held by the link, and the link holds at most one. A move keeps the ledger (`Link.Ledger.move`),
so a walk does, and along a walk the slots that were taken and not given back are those that the
link holds (`Link.Ledger.balance`).
-/

namespace Gatehouse

namespace Link

/-! ## Moves -/

/-- What one passage through the lock does to a link. -/
inductive Move : Link → Link → Prop
  /-- Nothing changes. -/
  | stay (l : Link) : Move l l
  /-- A slot is taken, for a link that holds none. -/
  | take {p q : Pool} (h : p.acquire? = some q) : Move ⟨p, false⟩ ⟨q, true⟩
  /-- The slot that the link holds is given back. -/
  | giveBack (p : Pool) : Move ⟨p, true⟩ ⟨p.release, false⟩

theorem move_connect {target : String} {l l' : Link} (h : l.connect target = .ok l') :
    Move l l' := by
  obtain ⟨p, connected⟩ := l
  cases connected with
  | true =>
    obtain rfl : ⟨p, true⟩ = l' := by simpa [connect] using h
    exact .stay _
  | false =>
    simp only [connect, Bool.false_eq_true, ↓reduceIte] at h
    split at h
    · cases h
    · split at h
      · cases h
      · next q hq =>
        obtain rfl := Except.ok.inj h
        exact .take hq

theorem move_disconnect (l : Link) : Move l l.disconnect := by
  obtain ⟨p, connected⟩ := l
  cases connected with
  | true => exact .giveBack p
  | false => exact .stay _

/-- Connecting fails for a link that is not live, because there is no target or because no slot is
free. -/
theorem connect_eq_error_iff {target : String} {l : Link} {e : Connection.Fault} :
    l.connect target = .error e ↔ l.connected = false ∧
      (target = "" ∧ e = .configuration "database URL must not be empty" ∨
        target ≠ "" ∧ l.pool.capacity ≤ l.pool.active ∧ e = .poolExhausted) := by
  unfold connect
  split
  · next h => simp [h]
  · next h =>
    have hoff : l.connected = false := by simpa using h
    split
    · next ht => simp [hoff, String.isEmpty_iff.mp ht, @eq_comm _ _ e]
    · next ht =>
      have htarget : target ≠ "" := fun he => ht (String.isEmpty_iff.mpr he)
      split
      · next hp => simp [hoff, htarget, Pool.acquire?_eq_none_iff.mp hp, @eq_comm _ _ e]
      · next p hp =>
        obtain ⟨hlt, -⟩ := Pool.acquire?_eq_some_iff.mp hp
        simp [htarget, UInt64.not_le.mpr hlt]

/-! ## Walks -/

/-- The link at the end of a history that it starts. -/
def after (l : Link) : List Moment → Link
  | [] => l
  | .seen _ :: h => l.after h
  | .moved l' :: h => l'.after h

/-- Whether every state that a history gives the link comes by a move from the state before. -/
def Walk (l : Link) : List Moment → Prop
  | [] => True
  | .seen _ :: h => l.Walk h
  | .moved l' :: h => l.Move l' ∧ l'.Walk h

theorem after_append (l : Link) (h t : List Moment) : l.after (h ++ t) = (l.after h).after t := by
  induction h generalizing l with
  | nil => rfl
  | cons m h ih => cases m <;> exact ih _

theorem walk_append {l : Link} {h t : List Moment} :
    l.Walk (h ++ t) ↔ l.Walk h ∧ (l.after h).Walk t := by
  induction h generalizing l with
  | nil => simp [Walk, after]
  | cons m h ih =>
    cases m with
    | seen n => exact ih
    | moved l' => simp only [List.cons_append, Walk, after, ih, and_assoc]

/-- How many slots are taken in a history that a link starts. -/
def acquisitions (l : Link) : List Moment → Nat
  | [] => 0
  | .seen _ :: h => l.acquisitions h
  | .moved l' :: h => (if l.pool.active < l'.pool.active then 1 else 0) + l'.acquisitions h

/-- How many slots are given back in a history that a link starts. -/
def releases (l : Link) : List Moment → Nat
  | [] => 0
  | .seen _ :: h => l.releases h
  | .moved l' :: h => (if l'.pool.active < l.pool.active then 1 else 0) + l'.releases h

/-! ## The ledger -/

/-- A link and the pool that it was made on: the capacity is the same, and of the slots that are
taken now the link holds one if it is live, and the others were taken before. -/
structure Ledger (pool : Pool) (l : Link) : Prop where
  capacity : l.pool.capacity = pool.capacity
  active : l.pool.active.toNat = pool.active.toNat + l.connected.toNat
  within : l.pool.active ≤ l.pool.capacity

namespace Ledger

variable {pool : Pool} {l l' : Link}

theorem ofPool (h : pool.active ≤ pool.capacity) : Ledger pool (Link.ofPool pool) :=
  ⟨rfl, rfl, h⟩

/-- A move keeps the ledger and counts at most once. -/
theorem move (hl : Ledger pool l) (hm : l.Move l') :
    Ledger pool l' ∧
      l.connected.toNat + (if l.pool.active < l'.pool.active then 1 else 0) =
        (if l'.pool.active < l.pool.active then 1 else 0) + l'.connected.toNat := by
  cases hm with
  | stay => exact ⟨hl, by simp⟩
  | take h =>
    rename_i p q
    obtain ⟨hactive, hcapacity, hwithin⟩ := Pool.active_of_acquire? h
    have hp : p.active.toNat = pool.active.toNat := hl.active
    refine ⟨⟨hcapacity.trans hl.capacity, ?_, hwithin⟩, ?_⟩
    · rw [hactive, hp]
      rfl
    · have hup : p.active < q.active := UInt64.lt_iff_toNat_lt.mpr (by omega)
      have hdown : ¬ q.active < p.active := UInt64.not_lt.mpr (UInt64.le_of_lt hup)
      simp [hup, hdown]
  | giveBack p =>
    have hp : p.active.toNat = pool.active.toNat + 1 := hl.active
    have hr : p.release.active.toNat = pool.active.toNat := by rw [Pool.active_release, hp]; rfl
    have hwithin : p.active.toNat ≤ p.capacity.toNat := UInt64.le_iff_toNat_le.mp hl.within
    refine ⟨⟨(p.release_capacity).trans hl.capacity, by simpa using hr, ?_⟩, ?_⟩
    · show p.release.active ≤ p.release.capacity
      rw [UInt64.le_iff_toNat_le, Pool.release_capacity]
      omega
    · have hdown : p.release.active < p.active := UInt64.lt_iff_toNat_lt.mpr (by omega)
      have hup : ¬ p.active < p.release.active := UInt64.not_lt.mpr (UInt64.le_of_lt hdown)
      simp [hup, hdown]

/-- A walk keeps the ledger, and the slots that it takes and does not give back are those that the
link holds at its end and did not hold at its start. -/
theorem balance (hl : Ledger pool l) {h : List Moment} (hw : l.Walk h) :
    Ledger pool (l.after h) ∧
      l.connected.toNat + l.acquisitions h = l.releases h + (l.after h).connected.toNat := by
  induction h generalizing l with
  | nil => exact ⟨hl, by simp [acquisitions, releases, after]⟩
  | cons m h ih =>
    cases m with
    | seen n => exact ih hl hw
    | moved l' =>
      obtain ⟨hm, hw⟩ := hw
      obtain ⟨hl', hcount⟩ := hl.move hm
      obtain ⟨hafter, hbalance⟩ := ih hl' hw
      refine ⟨hafter, ?_⟩
      simp only [acquisitions, releases, after]
      omega

end Ledger

end Link

end Gatehouse
