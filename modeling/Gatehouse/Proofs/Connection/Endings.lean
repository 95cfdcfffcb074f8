import Gatehouse.Connection.Action

/-!
# How an action ends

`Action.Ends x good bad` says how an action ends in every world: by returning what is `good`, or by
a panic, if `bad` allows one. An action that cannot panic has `bad` empty, and catching makes it so.
-/

namespace Gatehouse

variable {σ α β : Type}

/-- A computation ends by returning what is good, or by a panic where that is allowed. -/
def Ending.Is (good : α → Prop) (bad : Prop) : Ending α → Prop
  | .returned a => good a
  | .panicked _ => bad

namespace Action

/-- In every world an action returns what is good, or panics where that is allowed. -/
def Ends (x : Action σ α) (good : α → Prop) (bad : Prop) : Prop :=
  ∀ w, (x w).ending.Is good bad

variable {x : Action σ α} {good : α → Prop} {bad : Prop}

theorem Ends.exists_returned (h : Ends x good False) (w : World σ) :
    ∃ a, (x w).ending = .returned a ∧ good a := by
  have hw := h w
  cases hending : (x w).ending with
  | returned a =>
    rw [hending] at hw
    exact ⟨a, rfl, hw⟩
  | panicked p =>
    rw [hending] at hw
    exact hw.elim

theorem ends_trivial (x : Action σ α) : Ends x (fun _ => True) True := by
  intro w
  cases (x w).ending <;> trivial

theorem ends_pure {a : α} (h : good a) : Ends (pure a : Action σ α) good bad :=
  fun _ => h

theorem ends_report (e : Event) : Ends (report e : Action σ Unit) (fun _ => True) bad :=
  fun _ => trivial

theorem ends_bind {f : α → Action σ β} {good' : β → Prop} (hx : Ends x good bad)
    (hf : ∀ a, good a → Ends (f a) good' bad) : Ends (x >>= f) good' bad := by
  intro w
  have hw := hx w
  rcases hrun : x w with ⟨ending, v, t⟩
  rw [hrun] at hw
  cases ending with
  | returned a =>
    rw [bind_run_of_returned f hrun]
    exact hf a hw v
  | panicked p =>
    rw [bind_run_of_panicked f hrun]
    exact hw

theorem ends_ite {p : Prop} [Decidable p] {x y : Action σ α} (hx : Ends x good bad)
    (hy : Ends y good bad) : Ends (if p then x else y) good bad := by
  split
  · exact hx
  · exact hy

/-- What is caught returns, however it ends. -/
theorem ends_caught (h : Ends x good bad) : Ends (caught x) (Ending.Is good bad) False :=
  fun w => h w

end Action

end Gatehouse
