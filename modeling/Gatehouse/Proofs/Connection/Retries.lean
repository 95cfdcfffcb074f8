import Gatehouse.Proofs.Connection.Accounts

/-!
# Trying again

A statement that meets a conflict is tried again. What the backend would say to one try after the
other (`Connection.answerTo`) and whether the connection is live before each of them
(`Connection.liveBefore`) is known from the backend alone, and says how often a statement is tried
and what comes of it (`Connection.tries_executeRetrying`). The tries can be counted in 32 bits
(`Connection.executeCounting`).
-/

namespace Gatehouse

variable {σ α : Type}

/-! ## Conflicts -/

/-- Whether a statement lost against another transaction. -/
def Outcome.isConflict : Outcome α → Bool
  | .failure .transactionConflict => true
  | .failure _ | .answer _ | .panic _ => false

/-- How many of the first answers are conflicts that only conflicts come before. -/
def leadingConflicts (answers : Nat → Outcome α) : Nat → Nat
  | 0 => 0
  | n + 1 =>
    if (answers 0).isConflict then leadingConflicts (fun i => answers (i + 1)) n + 1 else 0

section Leading

variable {answers : Nat → Outcome α} {n m : Nat}

theorem leadingConflicts_le (answers : Nat → Outcome α) (n : Nat) :
    leadingConflicts answers n ≤ n := by
  induction n generalizing answers with
  | zero => exact Nat.le_refl 0
  | succ n ih =>
    unfold leadingConflicts
    split
    · exact Nat.succ_le_succ (ih _)
    · exact Nat.zero_le _

theorem isConflict_of_lt_leadingConflicts {i : Nat} (hi : i < leadingConflicts answers n) :
    (answers i).isConflict = true := by
  induction n generalizing answers i with
  | zero => exact absurd hi (Nat.not_lt_zero i)
  | succ n ih =>
    unfold leadingConflicts at hi
    split at hi
    · next hconflict =>
      cases i with
      | zero => exact hconflict
      | succ i => exact @ih (fun i => answers (i + 1)) i (Nat.lt_of_succ_lt_succ hi)
    · exact absurd hi (Nat.not_lt_zero i)

theorem isConflict_leadingConflicts (hlt : leadingConflicts answers n < n) :
    (answers (leadingConflicts answers n)).isConflict = false := by
  induction n generalizing answers with
  | zero => exact absurd hlt (Nat.not_lt_zero _)
  | succ n ih =>
    unfold leadingConflicts at hlt ⊢
    split at hlt
    · next hconflict =>
      rw [if_pos hconflict]
      exact @ih (fun i => answers (i + 1)) (Nat.lt_of_succ_lt_succ hlt)
    · next hno =>
      rw [if_neg hno]
      exact eq_false_of_ne_true hno

/-- The first answers that are conflicts are counted up to the limit. -/
theorem leadingConflicts_eq_min (hbefore : ∀ i < m, (answers i).isConflict = true)
    (hlast : m < n → (answers m).isConflict = false) : leadingConflicts answers n = min n m := by
  induction n generalizing answers m with
  | zero => rw [leadingConflicts, Nat.zero_min]
  | succ n ih =>
    unfold leadingConflicts
    cases m with
    | zero => rw [hlast (Nat.succ_pos n), Nat.min_zero, if_neg Bool.false_ne_true]
    | succ m =>
      have hrest : leadingConflicts (fun i => answers (i + 1)) n = min n m :=
        ih (fun i hi => hbefore (i + 1) (Nat.succ_lt_succ hi))
          (fun hm => hlast (Nat.succ_lt_succ hm))
      rw [if_pos (hbefore 0 (Nat.succ_pos m)), hrest, Nat.succ_min_succ]

theorem leadingConflicts_of_all (hall : ∀ i < n, (answers i).isConflict = true) :
    leadingConflicts answers n = n := by
  rw [leadingConflicts_eq_min hall fun h => absurd h (Nat.lt_irrefl n), Nat.min_self]

/-- Only a conflict ends as one. -/
theorem Outcome.ending_eq_conflict_iff {o : Outcome α} :
    o.ending = .returned (.error .transactionConflict) ↔ o.isConflict = true := by
  cases o with
  | answer a => exact ⟨nofun, nofun⟩
  | panic p => exact ⟨nofun, nofun⟩
  | failure e => cases e <;> simp [Outcome.ending, Outcome.isConflict]

end Leading

/-! ## What is seen of tries -/

/-- What a moment tells of tries: a statement that reaches the backend or a warning. -/
def Moment.tryNote? : Moment → Option Note
  | .seen (.call call) => some (.call call)
  | .seen (.event e) => if e.level = .warn then some (.event e) else none
  | .moved _ => none

/-- The statements that reach the backend and the warnings, in order. -/
def triesIn (history : List Moment) : List Note :=
  history.filterMap Moment.tryNote?

theorem triesIn_append (s t : List Moment) : triesIn (s ++ t) = triesIn s ++ triesIn t :=
  List.filterMap_append

theorem callsIn_eq_of_triesIn (history : List Moment) :
    callsIn history = (triesIn history).filterMap fun n => (Moment.seen n).call? := by
  induction history with
  | nil => rfl
  | cons m history ih =>
    match m with
    | .seen (.call call) => exact congrArg (call :: ·) ih
    | .seen (.event e) =>
      by_cases h : e.level = .warn
      · have htry : triesIn (.seen (.event e) :: history) = .event e :: triesIn history :=
          List.filterMap_cons_some (if_pos h)
        rw [htry]
        exact ih
      · have htry : triesIn (.seen (.event e) :: history) = triesIn history :=
          List.filterMap_cons_none (if_neg h)
        rw [htry]
        exact ih
    | .moved l => exact ih

namespace Connection

variable (c : Connection σ)

theorem triesIn_connect (w : World σ) : triesIn (c.connect w).history = [] := by
  rw [connect_run]
  cases w.link.connect c.target with
  | error e => rfl
  | ok l => cases w.link.connected <;> rfl

theorem triesIn_disconnect (w : World σ) : triesIn (c.disconnect w).history = [] := by
  rw [disconnect_run]
  cases w.link.connected <;> rfl

theorem triesIn_follow (ts : List Transition) (w : World σ) :
    triesIn (c.follow ts w).history = [] := by
  induction ts generalizing w with
  | nil => rfl
  | cons t ts ih =>
    cases t with
    | connect =>
      obtain ⟨result, hending, -⟩ := c.ends_connect.exists_returned w
      unfold follow
      rw [Action.bind_run_of_ending _ hending, triesIn_append, c.triesIn_connect, ih]
      rfl
    | disconnect =>
      obtain ⟨result, hending, -⟩ := c.ends_disconnect.exists_returned w
      unfold follow
      rw [Action.bind_run_of_ending _ hending, triesIn_append, c.triesIn_disconnect, ih]
      rfl

theorem triesIn_deliver (call : Call) (f : σ → Reply σ α) (w : World σ) :
    triesIn (c.deliver call f w).history = [.call call] := by
  unfold deliver
  rw [Action.bind_run_of_returned _ (Action.send_run call f w)]
  dsimp only
  generalize (⟨w.link, (f w.backend).next⟩ : World σ) = v
  obtain ⟨u, hending, -⟩ := (c.ends_follow (f w.backend).meanwhile).exists_returned v
  rw [Action.bind_run_of_ending _ hending, triesIn_append, triesIn_append, c.triesIn_follow]
  cases (f w.backend).outcome <;> rfl

theorem triesIn_submit (call : Call) (f : σ → Reply σ α) (w : World σ) :
    triesIn (c.submit call f w).history = [.call call] := by
  have hquiet : triesIn [.seen (.event (statementEvent call))] = [] := by
    obtain ⟨kind, sql, params⟩ := call
    cases kind <;> rfl
  unfold submit
  split
  · rw [Action.bind_run_of_returned _ (Action.report_run _ w), triesIn_append, hquiet]
    exact c.triesIn_deliver call f w
  · exact c.triesIn_deliver call f w

/-! ## Tries -/

section Tries

variable (sql : String) (params : List Json.Value) (w : World σ)

/-- The world before a try, where the tries before it have reached the backend. -/
def beforeTry (i : Nat) : World σ :=
  c.behind w (List.replicate i ⟨.execute, sql, params⟩)

/-- Whether the connection is live before a try. -/
def liveBefore (i : Nat) : Bool :=
  (c.beforeTry sql params w i).link.connected

/-- How the backend takes a try. -/
def answerTo (i : Nat) : Outcome UInt64 :=
  (c.backend.execute (c.beforeTry sql params w i).backend sql params).outcome

theorem beforeTry_succ (i : Nat) :
    c.beforeTry sql params w (i + 1) = c.beforeTry sql params (c.beforeTry sql params w 1) i := by
  unfold beforeTry
  rw [← c.behind_append, List.replicate_append_replicate, Nat.add_comm]

theorem liveBefore_succ (i : Nat) :
    c.liveBefore sql params w (i + 1) =
      c.liveBefore sql params (c.beforeTry sql params w 1) i := by
  unfold liveBefore
  rw [beforeTry_succ]

theorem answerTo_succ (i : Nat) :
    c.answerTo sql params w (i + 1) = c.answerTo sql params (c.beforeTry sql params w 1) i := by
  unfold answerTo
  rw [beforeTry_succ]

theorem execute_run_eq_submit (hlive : w.link.connected = true) :
    c.execute sql params w =
      c.submit ⟨.execute, sql, params⟩ (c.backend.execute · sql params) w := by
  unfold execute
  rw [Action.bind_run_of_returned _ (Action.link_run w), hlive]
  rfl

/-- One try over a live connection: the answer of the backend, in the world before the next try. -/
theorem execute_run_of_live (hlive : w.link.connected = true) :
    (c.execute sql params w).ending = (c.answerTo sql params w 0).ending ∧
      (c.execute sql params w).world = c.beforeTry sql params w 1 ∧
      triesIn (c.execute sql params w).history = [.call ⟨.execute, sql, params⟩] := by
  have hworld : (c.execute sql params w).world = c.beforeTry sql params w 1 := by
    rw [(c.accounted_execute sql params).world, c.calls_execute, if_pos hlive]
    rfl
  refine ⟨?_, hworld, ?_⟩
  · rw [c.execute_run_eq_submit sql params w hlive]
    exact c.ending_submit _ _ w
  · rw [c.execute_run_eq_submit sql params w hlive]
    exact c.triesIn_submit _ _ w

/-- What is seen of so many tries that are followed by another, when so many came before them. -/
def retried (before k : Nat) : List Note :=
  (List.range k).flatMap fun i =>
    [.call ⟨.execute, sql, params⟩, .event (c.retryEvent (before + i + 1))]

theorem retried_succ (before k : Nat) :
    c.retried sql params before (k + 1) =
      .call ⟨.execute, sql, params⟩ :: .event (c.retryEvent (before + 1)) ::
        c.retried sql params (before + 1) k := by
  have hshift : ∀ i, before + (i + 1) + 1 = before + 1 + i + 1 := by omega
  simp only [retried, List.range_succ_eq_map, List.flatMap_cons, List.flatMap_map, hshift]
  rfl

theorem filterMap_retried (before k : Nat) :
    (c.retried sql params before k).filterMap (fun n => (Moment.seen n).call?) =
      List.replicate k ⟨.execute, sql, params⟩ := by
  induction k generalizing before with
  | zero => rfl
  | succ k ih =>
    rw [retried_succ, List.replicate_succ, ← ih (before + 1)]
    rfl

/-! ## Runs of tries -/

/-- A try that meets a conflict is followed by a warning and by the other tries. -/
theorem executeWithin_run_of_conflict (n : Nat) (hlive : w.link.connected = true)
    (hconflict : (c.answerTo sql params w 0).isConflict = true) :
    (c.executeWithin sql params (n + 1) w).ending =
        (c.executeWithin sql params n (c.beforeTry sql params w 1)).ending ∧
      triesIn (c.executeWithin sql params (n + 1) w).history =
        .call ⟨.execute, sql, params⟩ :: .event (c.retryEvent (c.maxRetries.toNat - n)) ::
          triesIn (c.executeWithin sql params n (c.beforeTry sql params w 1)).history := by
  obtain ⟨hending, hworld, htries⟩ := c.execute_run_of_live sql params w hlive
  have hagain := hending.trans (Outcome.ending_eq_conflict_iff.mpr hconflict)
  rw [executeWithin, Action.bind_run_of_ending _ hagain, hworld]
  dsimp only
  rw [Action.bind_run_of_returned _ (Action.report_run _ _), triesIn_append, triesIn_append, htries]
  exact ⟨rfl, rfl⟩

/-- A try that meets no conflict, or is the last one, is the end of them. -/
theorem executeWithin_run_of_settled {n : Nat} (hlive : w.link.connected = true)
    (hsettled : n ≠ 0 → (c.answerTo sql params w 0).isConflict = false) :
    (c.executeWithin sql params n w).ending = (c.answerTo sql params w 0).ending ∧
      triesIn (c.executeWithin sql params n w).history = [.call ⟨.execute, sql, params⟩] := by
  obtain ⟨hending, -, htries⟩ := c.execute_run_of_live sql params w hlive
  cases n with
  | zero => exact ⟨hending, htries⟩
  | succ n =>
    have hno : (c.execute sql params w).ending ≠ .returned (.error .transactionConflict) := by
      rw [hending, ne_eq, Outcome.ending_eq_conflict_iff, hsettled (Nat.succ_ne_zero n)]
      exact Bool.false_ne_true
    have hstop : c.executeWithin sql params (n + 1) w = c.execute sql params w := by
      rcases hrun : c.execute sql params w with ⟨ending, v, t⟩
      rw [hrun] at hno
      rw [executeWithin]
      cases ending with
      | panicked p => exact Action.bind_run_of_panicked _ hrun
      | returned result =>
        rw [Action.bind_run_of_returned _ hrun]
        split
        · exact absurd rfl hno
        · simp
    rw [hstop]
    exact ⟨hending, htries⟩

/-- How a run of tries ends, and what is seen of it, from the first tries that were all made: before
the next one the connection is found apart, or it is made and is the last. -/
theorem tries_executeWithin {n j : Nat} (hn : n ≤ c.maxRetries.toNat)
    (hj : j ≤ leadingConflicts (c.answerTo sql params w) n)
    (hlive : ∀ i < j, c.liveBefore sql params w i = true) :
    (c.liveBefore sql params w j = false →
      (c.executeWithin sql params n w).ending = .returned (.error .notConnected) ∧
      triesIn (c.executeWithin sql params n w).history =
        c.retried sql params (c.maxRetries.toNat - n) j) ∧
    (c.liveBefore sql params w j = true → j = leadingConflicts (c.answerTo sql params w) n →
      (c.executeWithin sql params n w).ending = (c.answerTo sql params w j).ending ∧
      triesIn (c.executeWithin sql params n w).history =
        c.retried sql params (c.maxRetries.toNat - n) j ++ [.call ⟨.execute, sql, params⟩]) := by
  induction j generalizing n w with
  | zero =>
    constructor
    · intro hapart
      rw [c.executeWithin_run_of_apart sql params w n hapart]
      exact ⟨rfl, rfl⟩
    · intro hlive' hlast
      apply c.executeWithin_run_of_settled sql params w hlive'
      intro hne
      have hno := isConflict_leadingConflicts (hlast ▸ Nat.pos_of_ne_zero hne)
      rw [← hlast] at hno
      exact hno
  | succ j ih =>
    cases n with
    | zero => exact absurd hj (Nat.not_succ_le_zero j)
    | succ n =>
      have hconflict : (c.answerTo sql params w 0).isConflict = true :=
        isConflict_of_lt_leadingConflicts (Nat.lt_of_lt_of_le (Nat.succ_pos j) hj)
      have hleading : leadingConflicts (c.answerTo sql params w) (n + 1) =
          leadingConflicts (c.answerTo sql params (c.beforeTry sql params w 1)) n + 1 := by
        rw [leadingConflicts, if_pos hconflict]
        simp only [answerTo_succ]
      obtain ⟨hending, htries⟩ :=
        c.executeWithin_run_of_conflict sql params w n (hlive 0 (Nat.succ_pos j)) hconflict
      have hbefore : c.maxRetries.toNat - n = c.maxRetries.toNat - (n + 1) + 1 := by omega
      obtain ⟨hapart, hlast⟩ := ih (w := c.beforeTry sql params w 1) (n := n) (by omega)
        (by omega) (fun i hi => by
          rw [← liveBefore_succ]
          exact hlive (i + 1) (Nat.succ_lt_succ hi))
      rw [hending, htries, retried_succ, hleading, liveBefore_succ, answerTo_succ, hbefore]
      rw [hbefore] at hapart hlast
      constructor
      · intro h
        obtain ⟨hend, htail⟩ := hapart h
        exact ⟨hend, by rw [htail]⟩
      · intro h hj
        obtain ⟨hend, htail⟩ := hlast h (Nat.succ.inj hj)
        exact ⟨hend, by rw [htail]; rfl⟩

end Tries

/-! ## Counting tries -/

theorem toNat_add_one {attempts : UInt32} (hfits : attempts.toNat + 1 < UInt32.size) :
    (attempts + 1).toNat = attempts.toNat + 1 := by
  rw [UInt32.toNat_add]
  exact Nat.mod_eq_of_lt hfits

/-- Runs a statement as `executeRetrying` does, with the tries that were made again counted in 32
bits. Where the count does not fit it breaks down. -/
def executeCounting (c : Connection σ) (sql : String) (params : List Json.Value)
    (attempts : UInt32) : Action σ (Except Fault UInt64) := do
  match ← c.execute sql params with
  | .error .transactionConflict =>
    if hmore : attempts < c.maxRetries then
      if hfits : attempts.toNat + 1 < UInt32.size then
        Action.report (c.retryEvent (attempts + 1).toNat)
        c.executeCounting sql params (attempts + 1)
      else Action.panic "attempt to add with overflow"
    else return .error .transactionConflict
  | result => return result
termination_by c.maxRetries.toNat - attempts.toNat
decreasing_by
  have hcount := toNat_add_one hfits
  have hlt := UInt32.lt_iff_toNat_lt.mp hmore
  omega

/-- The tries that are left and the tries that were made again come to the limit. -/
theorem executeCounting_eq_executeWithin (sql : String) (params : List Json.Value)
    {attempts : UInt32} {left : Nat} (hleft : attempts.toNat + left = c.maxRetries.toNat) :
    c.executeCounting sql params attempts = c.executeWithin sql params left := by
  induction left generalizing attempts with
  | zero =>
    have hlast : ¬ attempts < c.maxRetries := by
      rw [UInt32.lt_iff_toNat_lt]
      omega
    funext w
    rw [executeCounting, executeWithin]
    rcases hrun : c.execute sql params w with ⟨ending, v, t⟩
    cases ending with
    | panicked p => exact Action.bind_run_of_panicked _ hrun
    | returned result =>
      rw [Action.bind_run_of_returned _ hrun]
      split
      · simp [hlast]
      · simp
  | succ left ih =>
    have hmore : attempts < c.maxRetries := by
      rw [UInt32.lt_iff_toNat_lt]
      omega
    have hfits : attempts.toNat + 1 < UInt32.size := by
      have hmax := c.maxRetries.toNat_lt_size
      omega
    have hcount := toNat_add_one hfits
    have hrest := ih (hcount ▸ (by omega : attempts.toNat + 1 + left = c.maxRetries.toNat))
    rw [executeCounting, executeWithin, hrest, hcount]
    congr 1
    funext result
    cases result with
    | ok n => rfl
    | error e =>
      cases e with
      | transactionConflict =>
        have hnumber : c.maxRetries.toNat - left = attempts.toNat + 1 := by omega
        dsimp only
        rw [dif_pos hmore, dif_pos hfits, hnumber]
      | configuration _ | poolExhausted | notConnected | emptyQuery | query _ => rfl

/-! ## Main statement -/

section Whole

variable (sql : String) (params : List Json.Value) {w : World σ}

/-- Where the connection is live all along, the tries go on to the last. -/
theorem executeRetrying_run_of_live {k : Nat}
    (hk : k = leadingConflicts (c.answerTo sql params w) c.maxRetries.toNat)
    (hlive : ∀ i ≤ k, c.liveBefore sql params w i = true) :
    (c.executeRetrying sql params w).calls = List.replicate (1 + k) ⟨.execute, sql, params⟩ ∧
      triesIn (c.executeRetrying sql params w).history =
        c.retried sql params 0 k ++ [.call ⟨.execute, sql, params⟩] ∧
      (c.executeRetrying sql params w).ending = (c.answerTo sql params w k).ending := by
  obtain ⟨-, hlast⟩ := c.tries_executeWithin sql params w (Nat.le_refl _) (Nat.le_of_eq hk)
    fun i hi => hlive i (Nat.le_of_lt hi)
  rw [Nat.sub_self, ← executeRetrying] at hlast
  obtain ⟨hending, htries⟩ := hlast (hlive k (Nat.le_refl k)) hk
  refine ⟨?_, htries, hending⟩
  rw [Run.calls, callsIn_eq_of_triesIn, htries, List.filterMap_append, filterMap_retried,
    Nat.add_comm, List.replicate_succ']
  rfl

/-- Where the connection is found apart, the tries go on to that one. -/
theorem executeRetrying_run_of_lost {j : Nat}
    (hj : j ≤ leadingConflicts (c.answerTo sql params w) c.maxRetries.toNat)
    (hlive : ∀ i < j, c.liveBefore sql params w i = true)
    (hlost : c.liveBefore sql params w j = false) :
    (c.executeRetrying sql params w).calls = List.replicate j ⟨.execute, sql, params⟩ ∧
      triesIn (c.executeRetrying sql params w).history = c.retried sql params 0 j ∧
      (c.executeRetrying sql params w).ending = .returned (.error .notConnected) := by
  obtain ⟨hapart, -⟩ := c.tries_executeWithin sql params w (Nat.le_refl _) hj hlive
  rw [Nat.sub_self, ← executeRetrying] at hapart
  obtain ⟨hending, htries⟩ := hapart hlost
  refine ⟨?_, htries, hending⟩
  rw [Run.calls, callsIn_eq_of_triesIn, htries, filterMap_retried]

/-- The tries end by a conflict if and only if each of them meets one. -/
theorem executeRetrying_ending_eq_conflict_iff :
    (c.executeRetrying sql params w).ending = .returned (.error .transactionConflict) ↔
      ∀ i ≤ c.maxRetries.toNat, c.liveBefore sql params w i = true ∧
        (c.answerTo sql params w i).isConflict = true := by
  constructor
  · intro hending
    obtain ⟨k, hk⟩ : ∃ k, k = leadingConflicts (c.answerTo sql params w) c.maxRetries.toNat :=
      ⟨_, rfl⟩
    -- Before a try at which the connection is lost, all the others were made.
    have hlive : ∀ j ≤ k, c.liveBefore sql params w j = true := by
      intro j
      induction j using Nat.strongRecOn with
      | ind j ih =>
        intro hj
        cases hlost : c.liveBefore sql params w j with
        | true => rfl
        | false =>
          have hrun := c.executeRetrying_run_of_lost sql params (hk ▸ hj)
            (fun i hi => ih i hi (by omega)) hlost
          cases hrun.2.2.symm.trans hending
    have hrun := c.executeRetrying_run_of_live sql params hk hlive
    have hlast : (c.answerTo sql params w k).isConflict = true :=
      Outcome.ending_eq_conflict_iff.mp (hrun.2.2.symm.trans hending)
    have hmax : k = c.maxRetries.toNat := by
      apply Nat.le_antisymm (hk ▸ leadingConflicts_le _ _)
      rw [← Nat.not_lt]
      intro hlt
      rw [hk] at hlast hlt
      rw [isConflict_leadingConflicts hlt] at hlast
      cases hlast
    intro i hi
    refine ⟨hlive i (hmax ▸ hi), ?_⟩
    obtain hlt | rfl := Nat.lt_or_eq_of_le hi
    · exact isConflict_of_lt_leadingConflicts (n := c.maxRetries.toNat) (by omega)
    · exact hmax ▸ hlast
  · intro hall
    have hk : c.maxRetries.toNat =
        leadingConflicts (c.answerTo sql params w) c.maxRetries.toNat :=
      (leadingConflicts_of_all fun i hi => (hall i (Nat.le_of_lt hi)).2).symm
    have hrun := c.executeRetrying_run_of_live sql params hk fun i hi => (hall i hi).1
    rw [hrun.2.2, Outcome.ending_eq_conflict_iff]
    exact (hall _ (Nat.le_refl _)).2

end Whole

/-- What comes of a statement that is tried again. With `k` the number of conflicts that the backend
would answer before anything else, up to the limit: if the connection is live before every try up to
the one after `k` others, these are the tries, and the answer to the last is how it ends. If it is
found apart before one of them, there is no further try, and it is refused. Every try but the last
is followed by a warning with its number. It ends by a conflict if and only if every try within the
limit is made and meets one. The tries that were made again can be counted in 32 bits. -/
theorem tries_executeRetrying (sql : String) (params : List Json.Value) (w : World σ) :
    let call : Call := ⟨.execute, sql, params⟩
    let run := c.executeRetrying sql params w
    let live := c.liveBefore sql params w
    let answer := c.answerTo sql params w
    let max := c.maxRetries.toNat
    let k := leadingConflicts answer max
    (∀ m, (∀ i < m, (answer i).isConflict = true) → (m < max → (answer m).isConflict = false) →
      k = min max m) ∧
    ((∀ i ≤ k, live i = true) →
      run.calls = List.replicate (1 + k) call ∧
      triesIn run.history = c.retried sql params 0 k ++ [.call call] ∧
      run.ending = (answer k).ending) ∧
    (∀ j ≤ k, (∀ i < j, live i = true) → live j = false →
      run.calls = List.replicate j call ∧
      triesIn run.history = c.retried sql params 0 j ∧
      run.ending = .returned (.error .notConnected)) ∧
    (run.ending = .returned (.error .transactionConflict) ↔
      ∀ i ≤ max, live i = true ∧ (answer i).isConflict = true) ∧
    c.executeRetrying sql params = c.executeCounting sql params 0 := by
  intro call run live answer max k
  refine ⟨fun m => leadingConflicts_eq_min, c.executeRetrying_run_of_live sql params rfl,
    fun j hj hlive hlost => c.executeRetrying_run_of_lost sql params hj hlive hlost,
    c.executeRetrying_ending_eq_conflict_iff sql params, ?_⟩
  exact (c.executeCounting_eq_executeWithin sql params (Nat.zero_add _)).symm

/-- Two conflicts before an answer, with tries left, with too few of them, and with the connection
cut over the second. -/
theorem tries_executeRetrying_two_conflicts :
    let busy (meanwhile : Nat → List Transition) : Backend Nat :=
      ⟨fun n _ _ => ⟨.answer [], [], n⟩, fun n _ _ =>
        ⟨if n < 2 then .failure .transactionConflict else .answer 7, meanwhile n, n + 1⟩⟩
    let quiet : Nat → List Transition := fun _ => []
    let cut : Nat → List Transition := fun n => if n = 1 then [.disconnect] else []
    let run (max : UInt32) (meanwhile : Nat → List Transition) : Run Nat (Except Fault UInt64) :=
      executeRetrying ⟨"db", busy meanwhile, max, true⟩ "UPDATE t SET x = 1" [] ⟨⟨⟨1, 1⟩, true⟩, 0⟩
    ((run 3 quiet).calls.length = 3 ∧ (run 3 quiet).ending = .returned (.ok 7)) ∧
      ((run 1 quiet).calls.length = 2 ∧
        (run 1 quiet).ending = .returned (.error .transactionConflict)) ∧
      (run 3 cut).calls.length = 2 ∧ (run 3 cut).ending = .returned (.error .notConnected) := by
  intro busy quiet cut run
  have hlaw (max : UInt32) (meanwhile : Nat → List Transition) :=
    tries_executeRetrying ⟨"db", busy meanwhile, max, true⟩ "UPDATE t SET x = 1" []
      ⟨⟨⟨1, 1⟩, true⟩, 0⟩
  obtain ⟨-, henough, -, -, -⟩ := hlaw 3 quiet
  obtain ⟨-, hfew, -, -, -⟩ := hlaw 1 quiet
  obtain ⟨-, -, hlost, -, -⟩ := hlaw 3 cut
  obtain ⟨hcalls, -, hending⟩ := henough (by decide)
  obtain ⟨hcalls', -, hending'⟩ := hfew (by decide)
  obtain ⟨hcalls'', -, hending''⟩ := hlost 2 (by decide) (by decide) (by decide)
  refine ⟨⟨?_, hending⟩, ⟨?_, hending'⟩, ?_, hending''⟩
  · exact congrArg List.length hcalls
  · exact congrArg List.length hcalls'
  · exact congrArg List.length hcalls''

end Connection

end Gatehouse
