import Gatehouse.Proofs.Connection.Calls
import Gatehouse.Proofs.Connection.Endings
import Gatehouse.Proofs.Link.Walks

/-!
# What statements come to

A statement over a link that is not live is refused before anything else is looked at, and one that
is blank is refused over a live link. Either way nothing happens. A query that is let through ends
as its backend takes it (`Connection.ending_query`), whatever others do in the meantime.
-/

namespace Gatehouse

variable {σ α : Type}

/-- How a statement ends that a backend has taken. -/
def Outcome.ending : Outcome α → Ending (Except Connection.Fault α)
  | .answer a => .returned (.ok a)
  | .failure e => .returned (.error e)
  | .panic payload => .panicked payload

namespace Connection

variable (c : Connection σ)

theorem ends_connect : Action.Ends c.connect (fun _ => True) False := by
  intro w
  rw [connect_run]
  cases w.link.connect c.target <;> trivial

theorem ends_disconnect : Action.Ends c.disconnect (fun _ => True) False := by
  intro w
  rw [disconnect_run]
  trivial

theorem ends_follow (ts : List Transition) : Action.Ends (c.follow ts) (fun _ => True) False := by
  induction ts with
  | nil => exact Action.ends_pure trivial
  | cons t ts ih =>
    cases t with
    | connect => exact Action.ends_bind c.ends_connect fun _ _ => ih
    | disconnect => exact Action.ends_bind c.ends_disconnect fun _ _ => ih

/-! ## Statements that are let through -/

theorem ending_deliver (call : Call) (f : σ → Reply σ α) (w : World σ) :
    (c.deliver call f w).ending = (f w.backend).outcome.ending := by
  unfold deliver
  rw [Action.bind_run_of_returned _ (Action.send_run call f w)]
  dsimp only
  generalize (⟨w.link, (f w.backend).next⟩ : World σ) = v
  obtain ⟨u, hending, -⟩ := (c.ends_follow (f w.backend).meanwhile).exists_returned v
  rw [Action.bind_run_of_ending _ hending]
  cases (f w.backend).outcome <;> rfl

theorem ending_submit (call : Call) (f : σ → Reply σ α) (w : World σ) :
    (c.submit call f w).ending = (f w.backend).outcome.ending := by
  unfold submit
  split
  · rw [Action.bind_run_of_returned _ (Action.report_run _ w)]
    exact c.ending_deliver call f w
  · exact c.ending_deliver call f w

section Whole

variable (sql : String) (params : List Json.Value) {w : World σ}

theorem ending_query (hlive : w.link.connected = true) (hsql : Text.isAllBlank sql = false) :
    (c.query sql params w).ending = (c.backend.fetch w.backend sql params).outcome.ending := by
  unfold query
  rw [Action.bind_run_of_returned _ (Action.link_run w), hlive, hsql]
  exact c.ending_submit _ _ w

/-! ## Statements that are refused -/

theorem query_run_of_apart (hlive : w.link.connected = false) :
    c.query sql params w = ⟨.returned (.error .notConnected), w, []⟩ := by
  unfold query
  rw [Action.bind_run_of_returned _ (Action.link_run w), hlive]
  rfl

theorem query_run_of_blank (hlive : w.link.connected = true) (hsql : Text.isAllBlank sql = true) :
    c.query sql params w = ⟨.returned (.error .emptyQuery), w, []⟩ := by
  unfold query
  rw [Action.bind_run_of_returned _ (Action.link_run w), hlive, hsql]
  rfl

end Whole

end Connection

end Gatehouse
