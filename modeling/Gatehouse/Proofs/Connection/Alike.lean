import Gatehouse.Connection.Statement
import Gatehouse.Proofs.Connection.Calls

/-!
# Backends that differ in what they say

Two backends are alike when, after whatever statements, their answers are the same but for the text
of a refusal or the payload of a panic (`Backend.Alike`). Over alike backends a connection goes the
same way: two runs of an action make the same calls, leave the same link, and end alike
(`Action.Alike`). The text that differs stays in the fault or the panic that carries it.
-/

namespace Gatehouse

variable {σ τ α β γ δ : Type}

/-! ## Alike answers -/

namespace Connection

/-- Two faults are the same but for the text in them. -/
inductive Fault.Alike : Fault → Fault → Prop
  | same (e : Fault) : Alike e e
  | query (x y : String) : Alike (.query x) (.query y)
  | configuration (x y : String) : Alike (.configuration x) (.configuration y)

theorem Fault.Alike.isOutage_eq {e e' : Fault} (h : e.Alike e') : e.isOutage = e'.isOutage := by
  cases h <;> rfl

/-- The outcomes of two statements: the same result, or faults that are alike. -/
inductive ResultAlike : Except Fault α → Except Fault α → Prop
  | ok (a : α) : ResultAlike (.ok a) (.ok a)
  | error {e e' : Fault} (h : e.Alike e') : ResultAlike (.error e) (.error e')

end Connection

/-- Two outcomes are the same but for the text of a refusal or the payload of a panic. -/
inductive Outcome.Alike : Outcome α → Outcome α → Prop
  | same (o : Outcome α) : Alike o o
  | query (x y : String) : Alike (.failure (.query x)) (.failure (.query y))
  | configuration (x y : String) : Alike (.failure (.configuration x)) (.failure (.configuration y))
  | panic (p q : String) : Alike (.panic p) (.panic q)

/-- What is heard of a backend over one statement. -/
inductive Heard where
  | rows (outcome : Outcome (List Row)) (meanwhile : List Transition)
  | count (outcome : Outcome UInt64) (meanwhile : List Transition)

inductive Heard.Alike : Heard → Heard → Prop
  | rows {o o' : Outcome (List Row)} {ts : List Transition} (h : o.Alike o') :
      Alike (.rows o ts) (.rows o' ts)
  | count {o o' : Outcome UInt64} {ts : List Transition} (h : o.Alike o') :
      Alike (.count o ts) (.count o' ts)

theorem Heard.Alike.of_rows {o o' : Outcome (List Row)} {ts ts' : List Transition}
    (h : Heard.Alike (.rows o ts) (.rows o' ts')) : o.Alike o' ∧ ts = ts' := by
  cases h with
  | rows h => exact ⟨h, rfl⟩

theorem Heard.Alike.of_count {o o' : Outcome UInt64} {ts ts' : List Transition}
    (h : Heard.Alike (.count o ts) (.count o' ts')) : o.Alike o' ∧ ts = ts' := by
  cases h with
  | count h => exact ⟨h, rfl⟩

namespace Backend

/-- What a backend in some state says to a statement, and the state behind it. -/
def hear (b : Backend σ) (s : σ) (call : Call) : Heard × σ :=
  match call.kind with
  | .fetch =>
    let reply := b.fetch s call.sql call.params
    (.rows reply.outcome reply.meanwhile, reply.next)
  | .execute =>
    let reply := b.execute s call.sql call.params
    (.count reply.outcome reply.meanwhile, reply.next)

/-- The state of a backend behind some statements. -/
def after (b : Backend σ) (s : σ) (calls : List Call) : σ :=
  calls.foldl (fun s call => (b.hear s call).2) s

/-- Two backends, each in some state, give answers that are alike to every statement that follows
whatever statements. -/
def Alike (b : Backend σ) (b' : Backend τ) (s : σ) (t : τ) : Prop :=
  ∀ before call, (b.hear (b.after s before) call).1.Alike (b'.hear (b'.after t before) call).1

variable {b : Backend σ} {b' : Backend τ} {s : σ} {t : τ}

theorem Alike.hear (h : b.Alike b' s t) (call : Call) :
    (b.hear s call).1.Alike (b'.hear t call).1 :=
  h [] call

theorem Alike.next (h : b.Alike b' s t) (call : Call) :
    b.Alike b' (b.hear s call).2 (b'.hear t call).2 :=
  fun before next => h (call :: before) next

end Backend

/-! ### Scripts -/

namespace Backend

/-- Two backends are alike where some relation of their states holds over every statement and makes
their answers alike. -/
theorem alike_of_related {b : Backend σ} {b' : Backend τ} {related : σ → τ → Prop}
    (hrelated : ∀ s t call, related s t →
      (b.hear s call).1.Alike (b'.hear t call).1 ∧ related (b.hear s call).2 (b'.hear t call).2)
    {s : σ} {t : τ} (h : related s t) : b.Alike b' s t := by
  intro before call
  induction before generalizing s t with
  | nil => exact (hrelated s t call h).1
  | cons first before ih => exact ih (hrelated s t first h).2

/-- Two scripts have equally many lines, which are alike one by one. -/
inductive LinesAlike : List (Outcome α) → List (Outcome α) → Prop
  | nil : LinesAlike [] []
  | cons {o o' : Outcome α} {os os' : List (Outcome α)} (h : o.Alike o') (hs : LinesAlike os os') :
      LinesAlike (o :: os) (o' :: os')

theorem LinesAlike.nextLine {os os' : List (Outcome α)} (h : LinesAlike os os') (a : α) :
    (nextLine a os).1.Alike (nextLine a os').1 ∧
      LinesAlike (nextLine a os).2 (nextLine a os').2 := by
  cases h with
  | nil => exact ⟨.same _, .nil⟩
  | cons h hs =>
    cases hs with
    | nil => exact ⟨h, .cons h .nil⟩
    | cons h' hs => exact ⟨h, .cons h' hs⟩

structure Script.Alike (s t : Script) : Prop where
  fetch : LinesAlike s.fetch t.fetch
  execute : LinesAlike s.execute t.execute

theorem Script.Alike.scripted {s t : Script} (h : s.Alike t) :
    Backend.scripted.Alike Backend.scripted s t := by
  refine alike_of_related ?_ h
  rintro s t ⟨kind, sql, params⟩ ⟨hfetch, hexecute⟩
  cases kind with
  | fetch =>
    obtain ⟨hline, hrest⟩ := hfetch.nextLine [simulatedRow]
    exact ⟨.rows hline, hrest, hexecute⟩
  | execute =>
    obtain ⟨hline, hrest⟩ := hexecute.nextLine 1
    exact ⟨.count hline, hfetch, hrest⟩

end Backend

/-- Two replies to one statement are alike, and leave the backends alike. -/
structure Reply.Alike (b : Backend σ) (b' : Backend τ) (r : Reply σ α) (r' : Reply τ α) :
    Prop where
  outcome : r.outcome.Alike r'.outcome
  meanwhile : r.meanwhile = r'.meanwhile
  next : b.Alike b' r.next r'.next

namespace Backend

variable {b : Backend σ} {b' : Backend τ} {s : σ} {t : τ}

theorem Alike.fetch (h : b.Alike b' s t) (sql : String) (params : List Json.Value) :
    (b.fetch s sql params).Alike b b' (b'.fetch t sql params) := by
  obtain ⟨houtcome, hmeanwhile⟩ := (h.hear ⟨.fetch, sql, params⟩).of_rows
  exact ⟨houtcome, hmeanwhile, h.next ⟨.fetch, sql, params⟩⟩

theorem Alike.execute (h : b.Alike b' s t) (sql : String) (params : List Json.Value) :
    (b.execute s sql params).Alike b b' (b'.execute t sql params) := by
  obtain ⟨houtcome, hmeanwhile⟩ := (h.hear ⟨.execute, sql, params⟩).of_count
  exact ⟨houtcome, hmeanwhile, h.next ⟨.execute, sql, params⟩⟩

end Backend

/-! ## Alike runs -/

/-- Two endings: results that correspond, or panics. -/
inductive Ending.Alike (good : α → β → Prop) : Ending α → Ending β → Prop
  | returned {a : α} {b : β} (h : good a b) : Alike good (.returned a) (.returned b)
  | panicked (p q : String) : Alike good (.panicked p) (.panicked q)

/-- Two runs over two backends have the same calls, leave the same link and backends that are alike,
and end alike. -/
structure Run.Alike (b : Backend σ) (b' : Backend τ) (good : α → β → Prop) (x : Run σ α)
    (y : Run τ β) : Prop where
  ending : x.ending.Alike good y.ending
  link : x.world.link = y.world.link
  backend : b.Alike b' x.world.backend y.world.backend
  calls : x.calls = y.calls

namespace Action

/-- From one link and backends that are alike, the runs of two actions are alike. -/
def Alike (b : Backend σ) (b' : Backend τ) (good : α → β → Prop) (x : Action σ α)
    (y : Action τ β) : Prop :=
  ∀ w v, w.link = v.link → b.Alike b' w.backend v.backend → (x w).Alike b b' good (y v)

namespace Alike

variable {b : Backend σ} {b' : Backend τ} {good : α → β → Prop} {x : Action σ α} {y : Action τ β}

theorem pure {a : α} {a' : β} (h : good a a') :
    Alike b b' good (Pure.pure a : Action σ α) (Pure.pure a' : Action τ β) :=
  fun _ _ hlink hbackend => ⟨.returned h, hlink, hbackend, rfl⟩

theorem panic (p q : String) :
    Alike b b' good (Action.panic p : Action σ α) (Action.panic q : Action τ β) :=
  fun _ _ hlink hbackend => ⟨.panicked p q, hlink, hbackend, rfl⟩

theorem link : Alike b b' Eq (Action.link : Action σ Link) (Action.link : Action τ Link) :=
  fun _ _ hlink hbackend => ⟨.returned hlink, hlink, hbackend, rfl⟩

theorem setLink (l : Link) :
    Alike b b' Eq (Action.setLink l : Action σ Unit) (Action.setLink l : Action τ Unit) :=
  fun _ _ _ hbackend => ⟨.returned rfl, rfl, hbackend, rfl⟩

/-- Events are not part of what is compared: they may tell what is not told to callers. -/
theorem report (e e' : Event) :
    Alike b b' Eq (Action.report e : Action σ Unit) (Action.report e' : Action τ Unit) :=
  fun _ _ hlink hbackend => ⟨.returned rfl, hlink, hbackend, rfl⟩

theorem ofEnding (e : Ending α) :
    Alike b b' Eq (Action.ofEnding e : Action σ α) (Action.ofEnding e : Action τ α) := by
  cases e with
  | returned a => exact Alike.pure rfl
  | panicked p => exact Alike.panic p p

theorem bind {good' : γ → δ → Prop} {f : α → Action σ γ} {g : β → Action τ δ}
    (hx : Alike b b' good x y) (hf : ∀ a a', good a a' → Alike b b' good' (f a) (g a')) :
    Alike b b' good' (x >>= f) (y >>= g) := by
  intro w v hlink hbackend
  obtain ⟨hending, hlink', hbackend', hcalls⟩ := hx w v hlink hbackend
  rcases hw : x w with ⟨ending, w1, s⟩
  rcases hv : y v with ⟨ending', v1, t⟩
  rw [hw, hv] at hending hlink' hbackend' hcalls
  cases hending with
  | returned h =>
    have hnext := hf _ _ h w1 v1 hlink' hbackend'
    rw [bind_run_of_returned f hw, bind_run_of_returned g hv]
    refine ⟨hnext.ending, hnext.link, hnext.backend, ?_⟩
    unfold Run.calls at hcalls ⊢
    rw [callsIn_append, callsIn_append, hcalls]
    exact congrArg _ hnext.calls
  | panicked p q =>
    rw [bind_run_of_panicked f hw, bind_run_of_panicked g hv]
    exact ⟨.panicked p q, hlink', hbackend', hcalls⟩

theorem caught (hx : Alike b b' good x y) :
    Alike b b' (Ending.Alike good) (Action.caught x) (Action.caught y) := by
  intro w v hlink hbackend
  obtain ⟨hending, hlink', hbackend', hcalls⟩ := hx w v hlink hbackend
  exact ⟨.returned hending, hlink', hbackend', hcalls⟩

theorem ite {p : Prop} [Decidable p] {x' : Action σ α} {y' : Action τ β}
    (hx : Alike b b' good x y) (hx' : Alike b b' good x' y') :
    Alike b b' good (if p then x else x') (if p then y else y') := by
  by_cases hp : p
  · rw [if_pos hp, if_pos hp]
    exact hx
  · rw [if_neg hp, if_neg hp]
    exact hx'

end Alike

end Action

/-! ## Connections -/

namespace Connection

open Gatehouse.Action (Alike)

/-- The connection with another backend behind it. -/
def withBackend (c : Connection σ) (b : Backend τ) : Connection τ :=
  ⟨c.target, b, c.maxRetries, c.logsStatements⟩

variable (c : Connection σ) (b' : Backend τ)

theorem alike_connect {b : Backend σ} : Alike b b' Eq c.connect (c.withBackend b').connect := by
  refine Alike.link.bind ?_
  rintro l _ rfl
  have htarget : (c.withBackend b').target = c.target := rfl
  rw [htarget]
  cases l.connect c.target with
  | error e => exact .pure rfl
  | ok after =>
    refine (Alike.setLink after).bind fun _ _ _ => ?_
    exact .ite ((Alike.report _ _).bind fun _ _ _ => .pure rfl) (.pure rfl)

theorem alike_disconnect {b : Backend σ} :
    Alike b b' Eq c.disconnect (c.withBackend b').disconnect := by
  refine Alike.link.bind ?_
  rintro l _ rfl
  refine (Alike.setLink l.disconnect).bind fun _ _ _ => ?_
  exact .ite (.report _ _) (.pure rfl)

theorem alike_follow {b : Backend σ} (ts : List Transition) :
    Alike b b' Eq (c.follow ts) ((c.withBackend b').follow ts) := by
  induction ts with
  | nil => exact .pure rfl
  | cons t ts ih =>
    cases t with
    | connect => exact (c.alike_connect b').bind fun _ _ _ => ih
    | disconnect => exact (c.alike_disconnect b').bind fun _ _ _ => ih

section Statements

variable {b : Backend σ} {call : Call} {f : σ → Reply σ α} {g : τ → Reply τ α}
  (h : ∀ s t, b.Alike b' s t → (f s).Alike b b' (g t))

include h in
theorem alike_deliver :
    Alike b b' ResultAlike (c.deliver call f) ((c.withBackend b').deliver call g) := by
  have hsend : Alike b b' (fun r r' => r.1.Alike r'.1 ∧ r.2 = r'.2)
      (Action.send call f) (Action.send call g) := by
    intro w v hlink hbackend
    obtain ⟨houtcome, hmeanwhile, hnext⟩ := h _ _ hbackend
    exact ⟨.returned ⟨houtcome, hmeanwhile⟩, hlink, hnext, rfl⟩
  refine hsend.bind ?_
  rintro ⟨o, ts⟩ ⟨o', ts'⟩ ⟨ho, hts⟩
  dsimp only at ho hts
  subst hts
  refine (c.alike_follow b' ts).bind fun _ _ _ => ?_
  cases ho with
  | same o =>
    cases o with
    | answer a => exact .pure (.ok a)
    | failure e => exact .pure (.error (.same e))
    | panic p => exact .panic p p
  | query x y => exact .pure (.error (.query x y))
  | configuration x y => exact .pure (.error (.configuration x y))
  | panic p q => exact .panic p q

include h in
theorem alike_submit :
    Alike b b' ResultAlike (c.submit call f) ((c.withBackend b').submit call g) := by
  have hdeliver : Alike b b' ResultAlike (c.deliver call f) ((c.withBackend b').deliver call g) :=
    c.alike_deliver b' h
  exact .ite ((Alike.report _ _).bind fun _ _ _ => hdeliver) hdeliver

end Statements

section Whole

variable (sql : String) (params : List Json.Value)

theorem alike_query :
    Alike c.backend b' ResultAlike (c.query sql params) ((c.withBackend b').query sql params) := by
  refine Alike.link.bind ?_
  rintro l _ rfl
  refine .ite (.pure (.error (.same _))) (.ite (.pure (.error (.same _))) ?_)
  exact c.alike_submit b' fun s t hst => hst.fetch sql params

theorem alike_execute :
    Alike c.backend b' ResultAlike (c.execute sql params)
      ((c.withBackend b').execute sql params) := by
  refine Alike.link.bind ?_
  rintro l _ rfl
  refine .ite (.pure (.error (.same _))) ?_
  exact c.alike_submit b' fun s t hst => hst.execute sql params

/-- Both connections meet conflicts at the same tries, so they try again equally often. -/
theorem alike_executeWithin (n : Nat) :
    Alike c.backend b' ResultAlike (c.executeWithin sql params n)
      ((c.withBackend b').executeWithin sql params n) := by
  induction n with
  | zero => exact c.alike_execute b' sql params
  | succ n ih =>
    refine (c.alike_execute b' sql params).bind ?_
    intro result result' hresult
    cases hresult with
    | ok a => exact .pure (.ok a)
    | @error e e' h =>
      cases h with
      | query x y => exact .pure (.error (.query x y))
      | configuration x y => exact .pure (.error (.configuration x y))
      | same =>
        cases e with
        | transactionConflict => exact (Alike.report _ _).bind fun _ _ _ => ih
        | _ => exact .pure (.error (.same _))

theorem alike_executeRetrying :
    Alike c.backend b' ResultAlike (c.executeRetrying sql params)
      ((c.withBackend b').executeRetrying sql params) :=
  c.alike_executeWithin b' sql params c.maxRetries.toNat

end Whole

end Connection

end Gatehouse
