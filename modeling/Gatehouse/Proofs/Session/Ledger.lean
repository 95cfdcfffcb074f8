import Gatehouse.Proofs.Session.Steps

/-!
# The ledger of a session

Every step of a session walks, so a run is one walk of the link (`Session.run_walks`), and a session
that starts over a pool keeps that pool's ledger at every moment of every run: between its steps,
within them, and while others connect and disconnect during a statement (`Session.slot_ledger`).
-/

namespace Gatehouse

variable {σ : Type}

namespace Session

/-- The moments of a run, in order. -/
def history (s : Session σ) (steps : List Step) : List Moment :=
  (s.run steps).2.flatMap Entry.history

theorem history_cons (s : Session σ) (st : Step) (rest : List Step) :
    s.history (st :: rest) = (s.step st).2.history ++ (s.step st).1.history rest := by
  simp only [history, run_cons, List.flatMap_cons]

/-- A step walks, and the world behind it has the link to which the walk leads. -/
theorem step_walks (s : Session σ) (st : Step) :
    s.world.link.Walk (s.step st).2.history ∧
      (s.step st).1.world.link = s.world.link.after (s.step st).2.history := by
  have h := walks_perform s.connection s.guards st s.world
  unfold step
  dsimp only
  split <;> exact h

theorem run_walks (s : Session σ) (steps : List Step) :
    s.world.link.Walk (s.history steps) ∧
      (s.run steps).1.world.link = s.world.link.after (s.history steps) := by
  induction steps generalizing s with
  | nil => exact ⟨trivial, rfl⟩
  | cons st rest ih =>
    obtain ⟨hwalk, hafter⟩ := s.step_walks st
    obtain ⟨hwalk', hafter'⟩ := ih (s.step st).1
    rw [hafter] at hwalk' hafter'
    rw [history_cons, run_cons, Link.after_append]
    exact ⟨Link.walk_append.mpr ⟨hwalk, hwalk'⟩, hafter'⟩

/-- A step that asks for a live connection and fails leaves the whole session as it was: the link,
the backend and the guards. -/
theorem step_of_failure {s : Session σ} {st : Step} (hst : st.connects) {e : Connection.Fault}
    (h : (s.step st).2.ending = .returned (.failure e)) :
    (s.step st).1 = s ∧ (s.step st).2.history = [] ∧
      s.world.link.connect s.connection.target = .error e := by
  obtain ⟨l, -, -, hdone⟩ | ⟨e', hl, hstep⟩ | ⟨a, ha, hstep⟩ := step_of_connects (s := s) hst
  · rw [hdone] at h
    cases h
  · rw [hstep] at h ⊢
    obtain rfl : e' = e := Answer.failure.inj (Ending.returned.inj h)
    exact ⟨rfl, rfl, hl⟩
  · rw [hstep] at h
    have hfailure : a = .failure e := Ending.returned.inj h
    obtain rfl | rfl := ha <;> cases hfailure

/-! ## Main statement -/

/-- The slot ledger. Over a pool of which some slots were taken before, at every moment of every
run the link holds one slot beyond those if it is live and none if it is not, the pool stays within
its capacity, which never changes, and the slots that were taken and not given back number one or
none in the same way. A step that asks for a live connection and fails, for want of a target or of
a free slot, changes nothing and opens no guard. -/
theorem slot_ledger (c : Connection σ) (pool : Pool) (b : σ) (hpool : pool.active ≤ pool.capacity)
    (steps : List Step) :
    let start := ofPool c pool b
    let behind := (start.run steps).1
    behind.world.link = start.world.link.after (start.history steps) ∧
    (∀ done rest, start.history steps = done ++ rest →
      let l := start.world.link.after done
      l.pool.active.toNat = pool.active.toNat + (if l.connected then 1 else 0) ∧
      l.pool.active ≤ l.pool.capacity ∧
      l.pool.available.toNat = l.pool.capacity.toNat - l.pool.active.toNat ∧
      l.pool.capacity = pool.capacity ∧
      start.world.link.acquisitions done =
        start.world.link.releases done + (if l.connected then 1 else 0)) ∧
    ∀ st e, st.connects → (behind.step st).2.ending = .returned (.failure e) →
      (behind.step st).1 = behind ∧ (behind.step st).2.history = [] ∧
      behind.world.link.connected = false ∧
      (c.target = "" ∨ behind.world.link.pool.capacity ≤ behind.world.link.pool.active) := by
  intro start behind
  obtain ⟨hwalk, hafter⟩ := start.run_walks steps
  refine ⟨hafter, ?_, ?_⟩
  · intro done rest hdone l
    rw [hdone] at hwalk
    obtain ⟨hledger, hbalance⟩ :=
      (Link.Ledger.ofPool hpool).balance (Link.walk_append.mp hwalk).1
    have hlive : l.connected.toNat = if l.connected then 1 else 0 := by cases l.connected <;> rfl
    have hstart : start.world.link.connected.toNat = 0 := rfl
    refine ⟨?_, hledger.within, Pool.toNat_available hledger.within, hledger.capacity, ?_⟩
    · rw [← hlive]
      exact hledger.active
    · rw [← hlive]
      change start.world.link.connected.toNat + start.world.link.acquisitions done = _ at hbalance
      rw [hstart, Nat.zero_add] at hbalance
      exact hbalance
  · intro st e hst hend
    obtain ⟨hsame, hhistory, hrefused⟩ := step_of_failure hst hend
    have htarget : behind.connection.target = c.target := by rw [run_connection]; rfl
    rw [htarget] at hrefused
    obtain ⟨hoff, ⟨hempty, -⟩ | ⟨-, hfull, -⟩⟩ := Link.connect_eq_error_iff.mp hrefused
    · exact ⟨hsame, hhistory, hoff, .inl hempty⟩
    · exact ⟨hsame, hhistory, hoff, .inr hfull⟩

/-- The ledger of a connection whose two guards overlap, over a pool with one of two slots taken. -/
theorem slot_ledger_overlapping_guards :
    (⟨2, 1⟩ : Pool).active ≤ (⟨2, 1⟩ : Pool).capacity ∧
      let start := ofPool (.ofTarget "db" .simulated : Connection Unit) ⟨2, 1⟩ ()
      let steps : List Step := [.openGuard "a", .openGuard "b", .endGuard "a" .scope,
        .operate none .connect, .endGuard "b" .close]
      (start.world.link.after (start.history steps)).pool.active.toNat =
        1 + (if (start.world.link.after (start.history steps)).connected then 1 else 0) := by
  refine ⟨by decide, ?_⟩
  exact ((slot_ledger _ _ _ (by decide) _).2.1 _ [] (List.append_nil _).symm).1

end Session

end Gatehouse
