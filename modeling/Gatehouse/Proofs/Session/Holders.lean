import Gatehouse.Proofs.Session.Steps

/-!
# How long a holder keeps the connection

Whoever connects or opens a guard holds the connection until it is cut: until somebody disconnects
or a guard ends, whichever guard that is and whether or not it found the connection live when it
was opened. Along lifecycle steps the connection is live exactly when the last step that counted
was granted (`Session.connected_run`), so a holder that nothing has cut has a live connection and
gets its statements through (`Session.held_until_cut`), while the end of any guard cuts off every
other holder (`Session.endGuard_cuts_every_holder`).
-/

namespace Gatehouse

variable {σ α β : Type}

/-! ## What reaches the backend -/

namespace Action

theorem mem_history_bind {x : Action σ α} {w : World σ} {m : Moment} (f : α → Action σ β)
    (h : m ∈ (x w).history) : m ∈ ((x >>= f) w).history := by
  rcases hrun : x w with ⟨ending, v, t⟩
  rw [hrun] at h
  cases ending with
  | returned a =>
    rw [bind_run_of_returned f hrun]
    exact List.mem_append_left _ h
  | panicked p =>
    rw [bind_run_of_panicked f hrun]
    exact h

theorem mem_history_bind_of_returned {x : Action σ α} {w v : World σ} {a : α} {t : List Moment}
    {m : Moment} (f : α → Action σ β) (hrun : x w = ⟨.returned a, v, t⟩)
    (h : m ∈ (f a v).history) : m ∈ ((x >>= f) w).history := by
  rw [bind_run_of_returned f hrun]
  exact List.mem_append_right _ h

end Action

namespace Connection

theorem call_mem_deliver (c : Connection σ) (call : Call) (f : σ → Reply σ α) (w : World σ) :
    .seen (.call call) ∈ (c.deliver call f w).history :=
  Action.mem_history_bind _ (List.mem_singleton_self _)

theorem call_mem_submit (c : Connection σ) (call : Call) (f : σ → Reply σ α) (w : World σ) :
    .seen (.call call) ∈ (c.submit call f w).history := by
  unfold submit
  cases c.logsStatements with
  | true =>
    exact Action.mem_history_bind_of_returned _ (Action.report_run _ w) (c.call_mem_deliver _ f w)
  | false => exact c.call_mem_deliver call f w

/-- Over a live connection a statement that is not blank reaches the backend. -/
theorem call_mem_query (c : Connection σ) {sql : String} (hsql : Text.isAllBlank sql = false)
    (params : List Json.Value) {w : World σ} (hw : w.link.connected = true) :
    .seen (.call ⟨.fetch, sql, params⟩) ∈ (c.query sql params w).history := by
  have hlive : (!w.link.connected) = false := by rw [hw]; rfl
  refine Action.mem_history_bind_of_returned _ (Action.link_run w) ?_
  simp only [hlive, hsql, Bool.false_eq_true, ↓reduceIte]
  exact c.call_mem_submit _ _ w

end Connection

/-! ## Steps that count -/

/-- Whether a step asked for a live connection and was granted it. -/
def Step.granted (st : Step) (e : Session.Entry) : Bool :=
  st.connects && match e.ending with
    | .returned .done => true
    | _ => false

/-- Whether a step ended the connection for whoever held it. -/
def Step.cuts (st : Step) (e : Session.Entry) : Bool :=
  (st.disconnects || st.endsGuard) && match e.ending with
    | .returned .done | .returned (.ended _) => true
    | _ => false

/-- Whether the last step that counted was granted; `live` when none counted. -/
def Step.lastWord (live : Bool) : List Step → List Session.Entry → Bool
  | st :: steps, e :: entries =>
    lastWord (if st.granted e then true else if st.cuts e then false else live) steps entries
  | _, _ => live

namespace Session

@[simp] theorem connected_disconnect (l : Link) : l.disconnect.connected = false := by
  unfold Link.disconnect
  split
  · rfl
  · next h => simpa using h

theorem connected_of_connect {target : String} {l l' : Link} (h : l.connect target = .ok l') :
    l'.connected = true := by
  unfold Link.connect at h
  split at h
  · next hl =>
    obtain rfl := Except.ok.inj h
    exact hl
  · split at h
    · cases h
    · split at h
      · cases h
      · obtain rfl := Except.ok.inj h
        rfl

/-- After a lifecycle step the connection is live if the step was granted, not live if it cut, and
otherwise as before. -/
theorem connected_step {s : Session σ} {st : Step} (hst : st.isLifecycle) :
    (s.step st).1.world.link.connected =
      if st.granted (s.step st).2 then true
      else if st.cuts (s.step st).2 then false
      else s.world.link.connected := by
  have hsplit : (st.disconnects || st.endsGuard) = !st.connects := by
    cases st with
    | operate guard op => cases op <;> first | rfl | cases hst
    | openGuard name => rfl
    | endGuard name how => rfl
    | respond gate r => cases hst
    | serve gate limit r => cases hst
  cases hc : st.connects with
  | true =>
    rw [hc] at hsplit
    obtain ⟨l, hl, hworld, hdone⟩ | ⟨e, -, hstep⟩ | ⟨a, ha, hstep⟩ := step_of_connects (s := s) hc
    · simp [Step.granted, hc, hdone, hworld, connected_of_connect hl]
    · simp [Step.granted, Step.cuts, hsplit, hstep]
    · obtain rfl | rfl := ha <;> simp [Step.granted, Step.cuts, hsplit, hstep]
  | false =>
    rw [hc] at hsplit
    obtain ⟨hworld, hdone⟩ | hstep := step_of_ends (s := s) (by rw [hsplit]; rfl)
    · obtain hdone | ⟨how, hdone⟩ := hdone <;>
        simp [Step.granted, Step.cuts, hc, hsplit, hdone, hworld]
    · simp [Step.granted, Step.cuts, hc, hstep]

/-- Along lifecycle steps the connection is live exactly when the last step that counted was
granted. -/
theorem connected_run {s : Session σ} {steps : List Step} (hsteps : ∀ st ∈ steps, st.isLifecycle) :
    (s.run steps).1.world.link.connected =
      Step.lastWord s.world.link.connected steps (s.run steps).2 := by
  induction steps generalizing s with
  | nil => rfl
  | cons st rest ih =>
    rw [run_cons, ih fun x hx => hsteps x (List.mem_cons_of_mem _ hx),
      connected_step (hsteps st List.mem_cons_self)]
    rfl

/-- Without a cut the connection stays live. -/
theorem lastWord_of_no_cut {steps : List Step} {entries : List Entry}
    (h : ∀ p ∈ steps.zip entries, p.1.cuts p.2 = false) :
    Step.lastWord true steps entries = true := by
  induction steps generalizing entries with
  | nil => rfl
  | cons st rest ih =>
    cases entries with
    | nil => rfl
    | cons e entries =>
      have hcut : st.cuts e = false := h (st, e) List.mem_cons_self
      have hrest := ih fun p hp => h p (List.mem_cons_of_mem _ hp)
      simpa [Step.lastWord, hcut] using hrest

/-! ## Statements through a held connection -/

theorem step_history (s : Session σ) (st : Step) :
    (s.step st).2.history = (perform s.connection s.guards st s.world).history := by
  unfold step
  dsimp only
  split <;> rfl

theorem mem_trace {e : Entry} {n : Note} (h : .seen n ∈ e.history) : n ∈ e.trace :=
  List.mem_filterMap.mpr ⟨.seen n, h, rfl⟩

/-- A statement that is not blank gets through a live connection, directly and through every open
guard. -/
theorem call_mem_step {s : Session σ} (hlive : s.world.link.connected = true)
    {guard : Option String} (hguard : ∀ name ∈ guard, name ∈ s.guards) {sql : String}
    (hsql : Text.isAllBlank sql = false) (params : List Json.Value) :
    .call ⟨.fetch, sql, params⟩ ∈ (s.step (.operate guard (.query sql params))).2.trace := by
  apply mem_trace
  rw [step_history]
  have hquery := s.connection.call_mem_query hsql params hlive
  cases guard with
  | none => exact Action.mem_history_bind _ (Action.mem_history_bind _ hquery)
  | some name =>
    have hname : s.guards.contains name = true := List.contains_iff_mem.mpr (hguard name rfl)
    simp only [perform, hname, ↓reduceIte]
    exact Action.mem_history_bind _ (Action.mem_history_bind _ hquery)

/-! ## Main statements -/

/-- Whoever was granted a live connection, by connecting or with a guard, keeps it until it is cut.
After any lifecycle steps the connection is live exactly when the last of them that counted was
granted; without a disconnect and without the end of any guard it is live, and statements get
through it and through every open guard; and the end of any guard, however it was opened, ends it
for everybody. -/
theorem held_until_cut {s : Session σ} {st : Step} (hst : st.granted (s.step st).2 = true)
    {later : List Step} (hlater : ∀ x ∈ later, x.isLifecycle = true) :
    let held := (s.step st).1
    let behind := (held.run later).1
    behind.world.link.connected = Step.lastWord true later (held.run later).2 ∧
    ((∀ p ∈ later.zip (held.run later).2, p.1.cuts p.2 = false) →
      behind.world.link.connected = true ∧
      ∀ guard : Option String, (∀ name ∈ guard, name ∈ behind.guards) → ∀ sql params,
        Text.isAllBlank sql = false →
        .call ⟨.fetch, sql, params⟩ ∈
          (behind.step (.operate guard (.query sql params))).2.trace) ∧
    ∀ name ∈ behind.guards, ∀ how,
      (behind.step (.endGuard name how)).1.world.link.connected = false := by
  intro held behind
  have hconnects : st.connects = true := (Bool.and_eq_true_iff.mp hst).1
  have hheld : held.world.link.connected = true := by
    rw [connected_step (by simp [Step.isLifecycle, hconnects]), hst]
    rfl
  have hlaw : behind.world.link.connected = Step.lastWord true later (held.run later).2 := by
    rw [connected_run hlater, hheld]
  refine ⟨hlaw, ?_, ?_⟩
  · intro hcut
    have hlive : behind.world.link.connected = true := by rw [hlaw, lastWord_of_no_cut hcut]
    exact ⟨hlive, fun guard hguard sql params hsql => call_mem_step hlive hguard hsql params⟩
  · intro name hname how
    rw [step_endGuard hname]
    exact connected_disconnect _

/-- A holder keeps its connection while others connect to it and open guards. -/
theorem held_until_cut_while_others_come :
    let s := ofPool (.ofTarget "db" .simulated : Connection Unit) ⟨2, 1⟩ ()
    let held := (s.step (.openGuard "a")).1
    let later : List Step := [.operate none .connect, .openGuard "b", .endGuard "c" .scope]
    (Step.openGuard "a").granted (s.step (.openGuard "a")).2 = true ∧
    (∀ x ∈ later, x.isLifecycle = true) ∧
    (held.run later).1.world.link.connected = true := by
  intro s held later
  have hgranted : (Step.openGuard "a").granted (s.step (.openGuard "a")).2 = true := by decide
  have hlater : ∀ x ∈ later, x.isLifecycle = true := by decide
  exact ⟨hgranted, hlater, ((held_until_cut hgranted hlater).2.1 (by decide)).1⟩

/-- An open guard does not keep the connection until somebody disconnects, and neither does
connecting: the end of another guard cuts both off, and a statement through the open guard is
refused. -/
theorem not_held_until_disconnect :
    ¬ (∀ (s : Session Unit) (name : String) (later : List Step),
      (Step.openGuard name).granted (s.step (.openGuard name)).2 = true →
      (∀ x ∈ later, x.isLifecycle = true ∧ x.disconnects = false ∧ ∀ how, x ≠ .endGuard name how) →
      let behind := ((s.step (.openGuard name)).1.run later).1
      behind.world.link.connected = true ∧
      (behind.step (.operate (some name) (.query "SELECT 1" []))).2.history ≠ []) ∧
    ¬ (∀ (s : Session Unit) (later : List Step),
      (Step.operate none .connect).granted (s.step (.operate none .connect)).2 = true →
      (∀ x ∈ later, x.isLifecycle = true ∧ x.disconnects = false) →
      ((s.step (.operate none .connect)).1.run later).1.world.link.connected = true) := by
  let fresh : Session Unit := ofPool (.ofTarget "db" .simulated) ⟨5, 0⟩ ()
  constructor
  · intro h
    have hlater : ∀ x ∈ [Step.endGuard "a" .scope],
        x.isLifecycle = true ∧ x.disconnects = false ∧ ∀ how, x ≠ .endGuard "b" how := by
      simp [Step.isLifecycle, Step.connects, Step.disconnects, Step.endsGuard]
    have hlive := (h (fresh.step (.openGuard "a")).1 "b" [.endGuard "a" .scope] (by decide)
      hlater).1
    exact absurd hlive (by decide)
  · intro h
    have hlive := h fresh [.openGuard "a", .endGuard "a" .close] (by decide) (by decide)
    exact absurd hlive (by decide)

end Session

end Gatehouse
