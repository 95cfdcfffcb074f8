import Gatehouse.Proofs.Link.Walks

/-!
# What lifecycle steps come to

The steps of a session that connect, disconnect, open a guard or end one, each as an equation: the
session behind the step and its entry, by what the link and the guards are before it. A guard that
opens is one more way to connect, and a guard that ends is one more way to disconnect.
-/

namespace Gatehouse

variable {σ : Type}

/-- Whether a step asks for a live connection: by connecting or by opening a guard. -/
def Step.connects : Step → Bool
  | .operate _ .connect | .openGuard _ => true
  | _ => false

/-- Whether a step asks for the end of the connection by name, not through the end of a guard. -/
def Step.disconnects : Step → Bool
  | .operate _ .disconnect => true
  | _ => false

/-- Whether a step ends a guard. -/
def Step.endsGuard : Step → Bool
  | .endGuard _ _ => true
  | _ => false

/-- Whether a step concerns the life of the connection and nothing else. -/
def Step.isLifecycle (st : Step) : Bool :=
  st.connects || st.disconnects || st.endsGuard

namespace Session

/-- A connection in use from its start, over a pool. -/
def ofPool (c : Connection σ) (pool : Pool) (b : σ) : Session σ :=
  ⟨c, ⟨.ofPool pool, b⟩, []⟩

/-- The session with another state of the link. -/
def withLink (s : Session σ) (l : Link) : Session σ :=
  ⟨s.connection, { s.world with link := l }, s.guards⟩

@[simp] theorem withLink_link (s : Session σ) (l : Link) : (s.withLink l).world.link = l := rfl

@[simp] theorem withLink_guards (s : Session σ) (l : Link) :
    (s.withLink l).guards = s.guards := rfl

/-- The moments of a link that is to be live. -/
def connectMoments (c : Connection σ) (before after : Link) : List Moment :=
  .moved after :: if before.connected then [] else [.seen (.event c.connectedEvent)]

/-- The moments of a link that is to end. -/
def disconnectMoments (before : Link) : List Moment :=
  .moved before.disconnect ::
    if before.connected then [.seen (.event Connection.disconnectedEvent)] else []

/-! ## Connecting -/

section Connecting

variable {s : Session σ} {guard : Option String} (hguard : ∀ name ∈ guard, name ∈ s.guards)

include hguard in
theorem step_connect_of_ok {l : Link} (h : s.world.link.connect s.connection.target = .ok l) :
    s.step (.operate guard .connect) =
      (s.withLink l, ⟨.returned .done, connectMoments s.connection s.world.link l, l⟩) := by
  cases guard with
  | none =>
    simp [step, perform, operate, bind, Action.andThen, Connection.connect_run, h, withLink,
      Answer.ofUnit, connectMoments]
  | some name =>
    have hname : name ∈ s.guards := hguard name rfl
    simp [step, perform, operate, bind, Action.andThen, Connection.connect_run, h, withLink,
      Answer.ofUnit, connectMoments, hname]

include hguard in
theorem step_connect_of_error {e : Connection.Fault}
    (h : s.world.link.connect s.connection.target = .error e) :
    s.step (.operate guard .connect) = (s, ⟨.returned (.failure e), [], s.world.link⟩) := by
  cases guard with
  | none =>
    simp [step, perform, operate, bind, Action.andThen, Connection.connect_run, h,
      Answer.ofUnit]
  | some name =>
    have hname : name ∈ s.guards := hguard name rfl
    simp [step, perform, operate, bind, Action.andThen, Connection.connect_run, h,
      Answer.ofUnit, hname]

end Connecting

/-- Nothing is done through a guard that is not open. -/
theorem step_operate_of_not_mem {s : Session σ} {name : String} (hname : name ∉ s.guards)
    (op : Operation) :
    s.step (.operate (some name) op) = (s, ⟨.returned .noGuard, [], s.world.link⟩) := by
  simp [step, perform, hname]

theorem step_openGuard_of_ok {s : Session σ} {name : String} (hname : name ∉ s.guards) {l : Link}
    (h : s.world.link.connect s.connection.target = .ok l) :
    s.step (.openGuard name) = (⟨s.connection, { s.world with link := l }, name :: s.guards⟩,
      ⟨.returned .done, connectMoments s.connection s.world.link l, l⟩) := by
  simp [step, perform, bind, Action.andThen, Connection.connect_run, h, hname, connectMoments]

theorem step_openGuard_of_error {s : Session σ} {name : String} (hname : name ∉ s.guards)
    {e : Connection.Fault} (h : s.world.link.connect s.connection.target = .error e) :
    s.step (.openGuard name) = (s, ⟨.returned (.failure e), [], s.world.link⟩) := by
  simp [step, perform, bind, Action.andThen, Connection.connect_run, h, hname]

theorem step_openGuard_of_mem {s : Session σ} {name : String} (hname : name ∈ s.guards) :
    s.step (.openGuard name) = (s, ⟨.returned .guardExists, [], s.world.link⟩) := by
  simp [step, perform, hname]

/-! ## Disconnecting -/

theorem step_disconnect {s : Session σ} {guard : Option String}
    (hguard : ∀ name ∈ guard, name ∈ s.guards) :
    s.step (.operate guard .disconnect) = (s.withLink s.world.link.disconnect,
      ⟨.returned .done, disconnectMoments s.world.link, s.world.link.disconnect⟩) := by
  cases guard with
  | none =>
    simp [step, perform, operate, bind, Action.andThen, Connection.disconnect_run, withLink,
      disconnectMoments]
  | some name =>
    have hname : name ∈ s.guards := hguard name rfl
    simp [step, perform, operate, bind, Action.andThen, Connection.disconnect_run, withLink,
      disconnectMoments, hname]

/-- Whatever guard ends, and however, its end is a disconnect. -/
theorem step_endGuard {s : Session σ} {name : String} (hname : name ∈ s.guards)
    (how : GuardEnd) :
    s.step (.endGuard name how) =
      (⟨s.connection, { s.world with link := s.world.link.disconnect }, s.guards.erase name⟩,
        ⟨.returned (.ended how), disconnectMoments s.world.link, s.world.link.disconnect⟩) := by
  simp [step, perform, bind, Action.andThen, Connection.disconnect_run, hname, disconnectMoments]

theorem step_endGuard_of_not_mem {s : Session σ} {name : String} (hname : name ∉ s.guards)
    (how : GuardEnd) :
    s.step (.endGuard name how) = (s, ⟨.returned .noGuard, [], s.world.link⟩) := by
  simp [step, perform, hname]

/-! ## What such a step can do -/

/-- A step that asks for a live connection is granted it, is refused it, or is not tried for want of
a guard under its name or because there is one already. -/
theorem step_of_connects {s : Session σ} {st : Step} (hst : st.connects) :
    (∃ l, s.world.link.connect s.connection.target = .ok l ∧
      (s.step st).1.world = { s.world with link := l } ∧
      (s.step st).2.ending = .returned .done) ∨
    (∃ e, s.world.link.connect s.connection.target = .error e ∧
      s.step st = (s, ⟨.returned (.failure e), [], s.world.link⟩)) ∨
    ∃ a, (a = .noGuard ∨ a = .guardExists) ∧
      s.step st = (s, ⟨.returned a, [], s.world.link⟩) := by
  cases st with
  | operate guard op =>
    cases op <;> try cases hst
    by_cases hguard : ∀ name ∈ guard, name ∈ s.guards
    · cases hl : s.world.link.connect s.connection.target with
      | ok l => exact .inl ⟨l, rfl, by rw [step_connect_of_ok hguard hl]; exact ⟨rfl, rfl⟩⟩
      | error e => exact .inr (.inl ⟨e, rfl, step_connect_of_error hguard hl⟩)
    · cases guard with
      | none => exact absurd (fun name h => by cases h) hguard
      | some name =>
        have hname : name ∉ s.guards := fun h => hguard fun _ he => Option.some.inj he ▸ h
        exact .inr (.inr ⟨_, .inl rfl, step_operate_of_not_mem hname .connect⟩)
  | openGuard name =>
    by_cases hname : name ∈ s.guards
    · exact .inr (.inr ⟨_, .inr rfl, step_openGuard_of_mem hname⟩)
    · cases hl : s.world.link.connect s.connection.target with
      | ok l => exact .inl ⟨l, rfl, by rw [step_openGuard_of_ok hname hl]; exact ⟨rfl, rfl⟩⟩
      | error e => exact .inr (.inl ⟨e, rfl, step_openGuard_of_error hname hl⟩)
  | endGuard name how => cases hst
  | respond gate r => cases hst
  | serve gate limit r => cases hst

/-- A step that asks for the end of the connection or of a guard ends the connection, or is not
tried for want of a guard under its name. -/
theorem step_of_ends {s : Session σ} {st : Step} (hst : st.disconnects || st.endsGuard) :
    ((s.step st).1.world = { s.world with link := s.world.link.disconnect } ∧
      ((s.step st).2.ending = .returned .done ∨
        ∃ how, (s.step st).2.ending = .returned (.ended how))) ∨
    s.step st = (s, ⟨.returned .noGuard, [], s.world.link⟩) := by
  cases st with
  | operate guard op =>
    cases op <;> try cases hst
    by_cases hguard : ∀ name ∈ guard, name ∈ s.guards
    · exact .inl (by rw [step_disconnect hguard]; exact ⟨rfl, .inl rfl⟩)
    · cases guard with
      | none => exact absurd (fun name h => by cases h) hguard
      | some name =>
        have hname : name ∉ s.guards := fun h => hguard fun _ he => Option.some.inj he ▸ h
        exact .inr (step_operate_of_not_mem hname .disconnect)
  | openGuard name => cases hst
  | endGuard name how =>
    by_cases hname : name ∈ s.guards
    · exact .inl (by rw [step_endGuard hname]; exact ⟨rfl, .inr ⟨how, rfl⟩⟩)
    · exact .inr (step_endGuard_of_not_mem hname how)
  | respond gate r => cases hst
  | serve gate limit r => cases hst

/-! ## Runs -/

@[simp] theorem step_connection (s : Session σ) (st : Step) :
    (s.step st).1.connection = s.connection := by
  unfold step
  dsimp only
  split <;> rfl

theorem run_cons (s : Session σ) (st : Step) (rest : List Step) :
    s.run (st :: rest) =
      (((s.step st).1.run rest).1, (s.step st).2 :: ((s.step st).1.run rest).2) := rfl


@[simp] theorem run_connection (s : Session σ) (steps : List Step) :
    (s.run steps).1.connection = s.connection := by
  induction steps generalizing s with
  | nil => rfl
  | cons st steps ih => rw [run_cons, ih, step_connection]

end Session

end Gatehouse
