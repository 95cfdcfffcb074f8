import Gatehouse.Connection.Statement

/-!
# Calls

The statements that reach the backend in a run, in their order: its history without the events and
the states of the link. Connecting, disconnecting and reporting reach no backend
(`Action.Silent`). A statement that is handed over is one call, whatever others do meanwhile, and
one that is tried again is the same call a number of times (`Connection.calls_executeWithin`).
-/

namespace Gatehouse

variable {σ α β : Type}

/-- The statement that reaches the backend in a moment. -/
def Moment.call? : Moment → Option Call
  | .seen (.call c) => some c
  | .seen (.event _) | .moved _ => none

/-- The statements in a history. -/
def callsIn (history : List Moment) : List Call :=
  history.filterMap Moment.call?

/-- The statements that reach the backend in a run. -/
def Run.calls (x : Run σ α) : List Call :=
  callsIn x.history

theorem callsIn_append (s t : List Moment) : callsIn (s ++ t) = callsIn s ++ callsIn t :=
  List.filterMap_append

namespace Action

/-- No statement reaches the backend. -/
def Silent (x : Action σ α) : Prop :=
  ∀ w, (x w).calls = []

namespace Silent

theorem pure (a : α) : Silent (Pure.pure a : Action σ α) := fun _ => rfl

theorem link : Silent (Action.link : Action σ Link) := fun _ => rfl

theorem setLink (l : Link) : Silent (Action.setLink l : Action σ Unit) := fun _ => rfl

theorem report (e : Event) : Silent (Action.report e : Action σ Unit) := fun _ => rfl

theorem panic (payload : String) : Silent (Action.panic payload : Action σ α) := fun _ => rfl

theorem ite {p : Prop} [Decidable p] {x y : Action σ α} (hx : Silent x) (hy : Silent y) :
    Silent (if p then x else y) := by
  by_cases hp : p
  · rw [if_pos hp]
    exact hx
  · rw [if_neg hp]
    exact hy

end Silent

theorem calls_bind_left (x : Action σ α) {f : α → Action σ β} (hf : ∀ a, Silent (f a))
    (w : World σ) : ((x >>= f) w).calls = (x w).calls := by
  rcases hrun : x w with ⟨ending, v, t⟩
  cases ending with
  | returned a =>
    have hcalls : callsIn (f a v).history = [] := hf a v
    rw [bind_run_of_returned f hrun]
    show callsIn (t ++ (f a v).history) = callsIn t
    rw [callsIn_append, hcalls, List.append_nil]
  | panicked p =>
    rw [bind_run_of_panicked f hrun]
    rfl

theorem Silent.bind {x : Action σ α} {f : α → Action σ β} (hx : Silent x)
    (hf : ∀ a, Silent (f a)) : Silent (x >>= f) := by
  intro w
  rw [calls_bind_left x hf]
  exact hx w

theorem calls_bind_of_returned {x : Action σ α} {w v : World σ} {a : α} {t : List Moment}
    (f : α → Action σ β) (h : x w = ⟨.returned a, v, t⟩) :
    ((x >>= f) w).calls = callsIn t ++ (f a v).calls := by
  rw [bind_run_of_returned f h]
  exact callsIn_append _ _

end Action

namespace Connection

open Gatehouse.Action (Silent)

/-! ## What reaches no backend -/

theorem silent_connect (c : Connection σ) : Silent c.connect := by
  refine Silent.link.bind fun before => ?_
  split
  · exact Silent.pure _
  · refine (Silent.setLink _).bind fun _ => ?_
    exact .ite ((Silent.report _).bind fun _ => .pure _) (.pure _)

theorem silent_disconnect (c : Connection σ) : Silent c.disconnect :=
  Silent.link.bind fun _ => (Silent.setLink _).bind fun _ => .ite (.report _) (.pure _)

theorem silent_follow (c : Connection σ) (ts : List Transition) : Silent (c.follow ts) := by
  induction ts with
  | nil => exact .pure ()
  | cons t ts ih =>
    cases t with
    | connect => exact c.silent_connect.bind fun _ => ih
    | disconnect => exact c.silent_disconnect.bind fun _ => ih

/-! ## Statements -/

/-- A statement that is handed over comes first, and nothing else reaches the backend with it. -/
theorem exists_history_deliver (c : Connection σ) (call : Call) (f : σ → Reply σ α)
    (w : World σ) :
    ∃ t, (c.deliver call f w).history = .seen (.call call) :: t ∧ callsIn t = [] := by
  unfold deliver
  rw [Action.bind_run_of_returned _ (Action.send_run call f w)]
  refine ⟨_, rfl, ((c.silent_follow (f w.backend).meanwhile).bind fun _ => ?_) _⟩
  generalize (f w.backend).outcome = o
  cases o with
  | answer a => exact .pure _
  | failure e => exact .pure _
  | panic payload => exact .panic payload

theorem calls_deliver (c : Connection σ) (call : Call) (f : σ → Reply σ α) (w : World σ) :
    (c.deliver call f w).calls = [call] := by
  obtain ⟨t, hhistory, ht⟩ := c.exists_history_deliver call f w
  unfold Run.calls
  rw [hhistory]
  exact congrArg (call :: ·) ht

theorem calls_submit (c : Connection σ) (call : Call) (f : σ → Reply σ α) (w : World σ) :
    (c.submit call f w).calls = [call] := by
  unfold submit
  by_cases hlogs : c.logsStatements
  · rw [if_pos hlogs, Action.calls_bind_of_returned _ (Action.report_run _ w), calls_deliver]
    rfl
  · rw [if_neg hlogs]
    exact c.calls_deliver call f w

section Whole

variable (c : Connection σ) (sql : String) (params : List Json.Value) (w : World σ)

theorem calls_query (hsql : Text.isAllBlank sql = false) :
    (c.query sql params w).calls =
      if w.link.connected then [⟨.fetch, sql, params⟩] else [] := by
  unfold query
  rw [Action.calls_bind_of_returned _ (Action.link_run w)]
  by_cases hlive : w.link.connected
  · rw [hlive, hsql]
    exact c.calls_submit _ _ w
  · rw [if_neg hlive, if_pos (by simpa using hlive)]
    rfl

theorem calls_execute :
    (c.execute sql params w).calls =
      if w.link.connected then [⟨.execute, sql, params⟩] else [] := by
  unfold execute
  rw [Action.calls_bind_of_returned _ (Action.link_run w)]
  by_cases hlive : w.link.connected
  · rw [hlive]
    exact c.calls_submit _ _ w
  · rw [if_neg hlive, if_pos (by simpa using hlive)]
    rfl

theorem execute_run_of_apart (hlive : w.link.connected = false) :
    c.execute sql params w = ⟨.returned (.error .notConnected), w, []⟩ := by
  unfold execute
  rw [Action.bind_run_of_returned _ (Action.link_run w), hlive]
  rfl

/-- A refusal is no conflict, so that a statement that is refused is not tried again. -/
theorem executeWithin_run_of_apart (n : Nat) (hlive : w.link.connected = false) :
    c.executeWithin sql params n w = ⟨.returned (.error .notConnected), w, []⟩ := by
  have hrun := c.execute_run_of_apart sql params w hlive
  cases n with
  | zero => exact hrun
  | succ n =>
    unfold executeWithin
    rw [Action.bind_run_of_returned _ hrun]
    rfl

theorem calls_executeWithin_of_apart (n : Nat) (hlive : w.link.connected = false) :
    (c.executeWithin sql params n w).calls = [] := by
  rw [executeWithin_run_of_apart c sql params w n hlive]
  rfl

/-- Over a live connection a statement that is tried again is one call over and over, and at most
as often as there are tries. -/
theorem calls_executeWithin (n : Nat) (hlive : w.link.connected = true) :
    ∃ k, k ≤ n ∧ (c.executeWithin sql params n w).calls =
      List.replicate (k + 1) ⟨.execute, sql, params⟩ := by
  have hfirst : ∀ w : World σ, w.link.connected = true →
      (c.execute sql params w).calls = [⟨.execute, sql, params⟩] :=
    fun w hlive => by rw [calls_execute, if_pos hlive]
  induction n generalizing w with
  | zero => exact ⟨0, Nat.le_refl 0, hfirst w hlive⟩
  | succ n ih =>
    unfold executeWithin
    rcases hrun : c.execute sql params w with ⟨ending, v, t⟩
    have hcalls : callsIn t = [⟨.execute, sql, params⟩] := by
      have h := hfirst w hlive
      rw [hrun] at h
      exact h
    cases ending with
    | panicked p =>
      rw [Action.bind_run_of_panicked _ hrun]
      exact ⟨0, Nat.zero_le _, hcalls⟩
    | returned result =>
      rw [Action.calls_bind_of_returned _ hrun, hcalls]
      split
      · rw [Action.calls_bind_of_returned _ (Action.report_run _ v)]
        -- The next try meets a connection that others may have taken down in the meantime.
        by_cases hnext : v.link.connected = true
        · obtain ⟨k, hk, hrest⟩ := ih v hnext
          refine ⟨k + 1, Nat.succ_le_succ hk, ?_⟩
          rw [hrest]
          rfl
        · rw [calls_executeWithin_of_apart _ _ _ _ _ (by simpa using hnext)]
          exact ⟨0, Nat.zero_le _, rfl⟩
      · exact ⟨0, Nat.zero_le _, rfl⟩

end Whole

end Connection

end Gatehouse
