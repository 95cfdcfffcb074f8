import Gatehouse.Proofs.Connection.Queries
import Gatehouse.Proofs.Handler.Statements
import Gatehouse.Proofs.Session.Ledger

/-!
# What the backend gets to see

A history is admitted by the link that it starts from when every statement in it reaches the backend
over a live link and asks for rows by more than white space (`Link.Admits`). Where a statement
stands is told by the walk in front of it, so an action that walks and is admitted is followed by
admitted ones. Others may take the link down while a statement is pending: the next try of that
statement looks at the link again (`Connection.admitted_executeWithin`). So whatever a session is
asked to do, the backend sees statements of a live link only (`Session.admits_run`).
-/

namespace Gatehouse

variable {σ α β : Type}

/-- A statement that asks for rows has a character that is no white space. -/
def Call.Speaks (call : Call) : Prop :=
  call.kind = .fetch → ∃ x ∈ call.sql.toList, Text.isBlank x = false

theorem isAllBlank_eq_false {sql : String} :
    Text.isAllBlank sql = false ↔ ∃ x ∈ sql.toList, Text.isBlank x = false := by
  simp [Text.isAllBlank]

namespace Link

/-- Whether every statement of a history reaches the backend over a live link, and speaks. -/
def Admits (l : Link) : List Moment → Prop
  | [] => True
  | .moved l' :: h => l'.Admits h
  | .seen (.event _) :: h => l.Admits h
  | .seen (.call call) :: h => (l.connected = true ∧ call.Speaks) ∧ l.Admits h

theorem admits_append {l : Link} {h t : List Moment} :
    l.Admits (h ++ t) ↔ l.Admits h ∧ (l.after h).Admits t := by
  induction h generalizing l with
  | nil => simp [Admits, after]
  | cons m h ih =>
    rcases m with ⟨e | call⟩ | l'
    · exact ih
    · simp only [List.cons_append, Admits, after, ih, and_assoc]
    · exact ih

theorem admits_of_callsIn {l : Link} {h : List Moment} (hcalls : callsIn h = []) : l.Admits h := by
  induction h generalizing l with
  | nil => trivial
  | cons m h ih =>
    rcases m with ⟨e | call⟩ | l'
    · exact ih hcalls
    · cases hcalls
    · exact ih hcalls

end Link

namespace Action

/-- From every link, the history of an action is admitted. -/
def Admitted (x : Action σ α) : Prop :=
  ∀ w : World σ, w.link.Admits (x w).history

theorem Silent.admitted {x : Action σ α} (h : Silent x) : Admitted x :=
  fun w => Link.admits_of_callsIn (h w)

namespace Admitted

theorem bind {x : Action σ α} {f : α → Action σ β} (hwalks : Walks x) (hx : Admitted x)
    (hf : ∀ a, Admitted (f a)) : Admitted (x >>= f) := by
  intro w
  have hadmits := hx w
  have hafter := (hwalks w).2
  rcases hrun : x w with ⟨ending, v, t⟩
  rw [hrun] at hadmits hafter
  cases ending with
  | returned a =>
    have hnext := hf a v
    have hv : v.link = w.link.after t := hafter
    rw [hv] at hnext
    rw [Action.bind_run_of_returned f hrun]
    exact Link.admits_append.mpr ⟨hadmits, hnext⟩
  | panicked p =>
    rw [Action.bind_run_of_panicked f hrun]
    exact hadmits

theorem caught {x : Action σ α} (hx : Admitted x) : Admitted (Action.caught x) :=
  fun w => hx w

theorem ite {p : Prop} [Decidable p] {x y : Action σ α} (hx : Admitted x) (hy : Admitted y) :
    Admitted (if p then x else y) := by
  split
  · exact hx
  · exact hy

end Admitted

end Action

open Gatehouse.Action (Admitted Silent Walks)

/-! ## Statements -/

namespace Connection

variable (c : Connection σ)

theorem admits_deliver {call : Call} (hcall : call.Speaks) (f : σ → Reply σ α) {w : World σ}
    (hlive : w.link.connected = true) : w.link.Admits (c.deliver call f w).history := by
  obtain ⟨t, hhistory, ht⟩ := c.exists_history_deliver call f w
  rw [hhistory]
  exact ⟨⟨hlive, hcall⟩, Link.admits_of_callsIn ht⟩

theorem admits_submit {call : Call} (hcall : call.Speaks) (f : σ → Reply σ α) {w : World σ}
    (hlive : w.link.connected = true) : w.link.Admits (c.submit call f w).history := by
  have hdeliver := c.admits_deliver hcall f hlive
  unfold submit
  split
  · rw [Action.bind_run_of_returned _ (Action.report_run _ w)]
    exact hdeliver
  · exact hdeliver

theorem admitted_query (sql : String) (params : List Json.Value) :
    Admitted (c.query sql params) := by
  intro w
  cases hlive : w.link.connected with
  | false =>
    rw [c.query_run_of_apart sql params hlive]
    trivial
  | true =>
    cases hsql : Text.isAllBlank sql with
    | true =>
      rw [c.query_run_of_blank sql params hlive hsql]
      trivial
    | false =>
      unfold query
      rw [Action.bind_run_of_returned _ (Action.link_run w), hlive, hsql]
      exact c.admits_submit (fun _ => isAllBlank_eq_false.mp hsql) _ hlive

theorem admitted_execute (sql : String) (params : List Json.Value) :
    Admitted (c.execute sql params) := by
  intro w
  cases hlive : w.link.connected with
  | false =>
    rw [c.execute_run_of_apart sql params w hlive]
    trivial
  | true =>
    unfold execute
    rw [Action.bind_run_of_returned _ (Action.link_run w), hlive]
    have hspeaks : Call.Speaks ⟨.execute, sql, params⟩ := by
      intro hkind
      cases hkind
    exact c.admits_submit hspeaks _ hlive

/-- Each try looks at the link as the one before has left it. -/
theorem admitted_executeWithin (sql : String) (params : List Json.Value) (n : Nat) :
    Admitted (c.executeWithin sql params n) := by
  induction n with
  | zero => exact c.admitted_execute sql params
  | succ n ih =>
    apply Admitted.bind (c.walks_execute sql params) (c.admitted_execute sql params)
    intro result
    split
    · exact .bind (Walks.report _) (Silent.report _).admitted fun _ => ih
    · exact (Silent.pure _).admitted

end Connection

/-! ## Requests -/

namespace Handler

theorem admitted_showUser (c : Connection σ) (id : String) : Admitted (showUser c id) := by
  apply Admitted.bind (c.walks_query _ _) (c.admitted_query _ _)
  intro rows
  apply Silent.admitted
  split
  · exact (silent_failed _).bind fun _ => .pure _
  · exact .pure _
  · exact .pure _

theorem admitted_addUser (c : Connection σ) (r : Request) : Admitted (addUser c r) := by
  unfold addUser
  split
  · exact (Silent.pure _).admitted
  · split
    · exact ((Silent.report _).bind fun _ => .pure _).admitted
    · apply Admitted.bind (c.walks_executeRetrying _ _) (c.admitted_executeWithin _ _ _)
      intro count
      apply Silent.admitted
      split
      · exact (silent_failed _).bind fun _ => .pure _
      · exact .pure _

theorem admitted_follow (c : Connection σ) (route : Route) (claims : Claims) (r : Request) :
    Admitted (follow c route claims r) := by
  cases route with
  | health => exact (Silent.pure _).admitted
  | getUser => exact admitted_showUser c claims.sub
  | createUser => exact admitted_addUser c r

theorem admitted_answer (c : Connection σ) (claims : Claims) (r : Request) :
    Admitted (answer c claims r) := by
  unfold answer
  split
  · exact ((Silent.report _).bind fun _ => .pure _).admitted
  · next route _ =>
    apply Admitted.bind (walks_follow c route claims r).caught (admitted_follow c _ _ _).caught
    intro ending
    apply Silent.admitted
    split
    · exact .pure _
    · exact .pure _
    · exact (Silent.report _).bind fun _ => .pure _

theorem admitted_respond (h : Handler σ) (r : Request) : Admitted (h.respond r) := by
  intro w
  cases hverdict : h.gate.judge r with
  | panicked p =>
    rw [respond_of_panicked w hverdict]
    trivial
  | returned verdict =>
    cases verdict with
    | error e =>
      rw [respond_of_denied w hverdict]
      trivial
    | ok claims =>
      rw [respond_of_granted w hverdict]
      exact admitted_answer h.connection claims r w

end Handler

theorem Http.admitted_serve (h : Handler σ) (limit : UInt64) (r : Http.Request) :
    Admitted (Http.serve h limit r) := by
  apply Admitted.ite (Silent.pure _).admitted
  apply Admitted.ite ((Silent.report _).bind fun _ => .pure _).admitted
  exact .bind (h.walks_respond _) (h.admitted_respond _) fun _ => (Silent.pure _).admitted

/-! ## Sessions -/

namespace Session

theorem admitted_operate (c : Connection σ) (guarded : Bool) (op : Operation) :
    Admitted (operate c guarded op) := by
  cases op with
  | connect => exact (c.silent_connect.bind fun _ => .pure _).admitted
  | disconnect => exact (c.silent_disconnect.bind fun _ => .pure _).admitted
  | query sql params =>
    exact .bind (c.walks_query _ _) (c.admitted_query _ _) fun _ => (Silent.pure _).admitted
  | execute sql params =>
    exact .bind (c.walks_execute _ _) (c.admitted_execute _ _) fun _ => (Silent.pure _).admitted
  | executeRetrying sql params =>
    exact .bind (c.walks_executeRetrying _ _) (c.admitted_executeWithin _ _ _)
      fun _ => (Silent.pure _).admitted
  | describe => exact (Silent.link.bind fun _ => .pure _).admitted
  | isConnected => exact (Silent.link.bind fun _ => .pure _).admitted

theorem admitted_perform (c : Connection σ) (guards : List String) (st : Step) :
    Admitted (perform c guards st) := by
  have hret : ∀ a : Answer × List String, Admitted (pure a : Action σ (Answer × List String)) :=
    fun a => (Silent.pure a).admitted
  cases st with
  | operate guard op =>
    cases guard with
    | none => exact .bind (walks_operate _ _ _) (admitted_operate _ _ _) fun _ => hret _
    | some name =>
      exact .ite (.bind (walks_operate _ _ _) (admitted_operate _ _ _) fun _ => hret _) (hret _)
  | openGuard name =>
    apply Admitted.ite (hret _)
    apply Admitted.bind c.walks_connect c.silent_connect.admitted
    intro result
    split
    · exact hret _
    · exact hret _
  | endGuard name how =>
    exact .ite (.bind c.walks_disconnect c.silent_disconnect.admitted fun _ => hret _) (hret _)
  | respond gate r =>
    exact .bind (Handler.walks_respond ⟨gate, c⟩ r) (Handler.admitted_respond ⟨gate, c⟩ r)
      fun _ => hret _
  | serve gate limit r =>
    exact .bind (Http.walks_serve ⟨gate, c⟩ limit r) (Http.admitted_serve ⟨gate, c⟩ limit r)
      fun _ => hret _

theorem admits_step (s : Session σ) (st : Step) :
    s.world.link.Admits (s.step st).2.history := by
  have h := admitted_perform s.connection s.guards st s.world
  unfold step
  dsimp only
  split <;> exact h

theorem admits_run (s : Session σ) (steps : List Step) :
    s.world.link.Admits (s.history steps) := by
  induction steps generalizing s with
  | nil => trivial
  | cons st rest ih =>
    have hnext := ih (s.step st).1
    rw [(s.step_walks st).2] at hnext
    rw [history_cons]
    exact Link.admits_append.mpr ⟨s.admits_step st, hnext⟩

/-! ## Main statement -/

/-- Whatever is done in a run, and whatever others do while a statement is pending, a statement that
reaches the backend does so while the link is live, and one that asks for rows is not blank. Over a
live link a query that is not blank is one such statement and ends as the backend takes it. Any
other is refused, for the link before its text, and nothing happens. -/
theorem statements_over_live_link :
    (∀ (s : Session σ) (steps : List Step) (done rest : List Moment) (call : Call),
      s.history steps = done ++ .seen (.call call) :: rest →
      (s.world.link.after done).connected = true ∧
        (call.kind = .fetch → ∃ x ∈ call.sql.toList, Text.isBlank x = false)) ∧
    ∀ (c : Connection σ) (sql : String) (params : List Json.Value) (w : World σ),
      (w.link.connected = true → (∃ x ∈ sql.toList, Text.isBlank x = false) →
        (c.query sql params w).calls = [⟨.fetch, sql, params⟩] ∧
        (c.query sql params w).ending = (c.backend.fetch w.backend sql params).outcome.ending) ∧
      (w.link.connected = true → (∀ x ∈ sql.toList, Text.isBlank x = true) →
        c.query sql params w = ⟨.returned (.error .emptyQuery), w, []⟩) ∧
      (w.link.connected = false →
        c.query sql params w = ⟨.returned (.error .notConnected), w, []⟩ ∧
        c.execute sql params w = ⟨.returned (.error .notConnected), w, []⟩ ∧
        ∀ left, c.executeWithin sql params left w =
          ⟨.returned (.error .notConnected), w, []⟩) := by
  constructor
  · intro s steps done rest call hhistory
    have hadmits := s.admits_run steps
    rw [hhistory, Link.admits_append] at hadmits
    exact hadmits.2.1
  · intro c sql params w
    refine ⟨?_, ?_, ?_⟩
    · intro hlive hspeaks
      have hsql : Text.isAllBlank sql = false := isAllBlank_eq_false.mpr hspeaks
      rw [c.calls_query sql params w hsql, if_pos hlive, c.ending_query sql params hlive hsql]
      exact ⟨rfl, rfl⟩
    · intro hlive hblank
      exact c.query_run_of_blank sql params hlive (List.all_eq_true.mpr hblank)
    · intro hapart
      exact ⟨c.query_run_of_apart sql params hapart, c.execute_run_of_apart sql params w hapart,
        fun left => c.executeWithin_run_of_apart sql params w left hapart⟩

/-- A statement that meets a conflict while somebody disconnects, and three queries: one that is let
through, a blank one, and a blank one behind the disconnect. -/
theorem statements_over_live_link_cut_meanwhile :
    let backend : Backend Unit := ⟨fun _ _ _ => ⟨.answer [], [], ()⟩,
      fun _ _ _ => ⟨.failure .transactionConflict, [.disconnect], ()⟩⟩
    let c : Connection Unit := ⟨"db", backend, 3, false⟩
    let s := ofPool c ⟨1, 0⟩ ()
    let steps : List Step := [.operate none .connect, .operate none (.executeRetrying "UPDATE" [])]
    let live : World Unit := ⟨⟨⟨1, 1⟩, true⟩, ()⟩
    (∃ done rest, s.history steps = done ++ .seen (.call ⟨.execute, "UPDATE", []⟩) :: rest ∧
      (s.world.link.after done).connected = true) ∧
    (c.query "SELECT" [] live).ending = .returned (.ok []) ∧
    c.query " " [] live = ⟨.returned (.error .emptyQuery), live, []⟩ ∧
    c.query " " [] (s.run steps).1.world =
      ⟨.returned (.error .notConnected), (s.run steps).1.world, []⟩ := by
  intro backend c s steps live
  obtain ⟨hcalls, hquery⟩ := statements_over_live_link (σ := Unit)
  have hhistory : s.history steps =
      [.moved ⟨⟨1, 1⟩, true⟩, .seen (.event c.connectedEvent)] ++
        .seen (.call ⟨.execute, "UPDATE", []⟩) ::
          [.moved ⟨⟨1, 0⟩, false⟩, .seen (.event Connection.disconnectedEvent),
            .seen (.event (c.retryEvent 1))] := by
    dsimp only [s, steps, c, backend]
    rfl
  have hblank : ∀ x ∈ " ".toList, Text.isBlank x = true := List.forall_mem_singleton.mpr rfl
  refine ⟨⟨_, _, hhistory, (hcalls s steps _ _ _ hhistory).1⟩, ?_, ?_, ?_⟩
  · exact ((hquery c "SELECT" [] live).1 rfl ⟨'S', by decide, by decide⟩).2
  · exact (hquery c " " [] live).2.1 rfl hblank
  · exact ((hquery c " " [] _).2.2 rfl).1

end Session

end Gatehouse
