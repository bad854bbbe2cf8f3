import Mathlib.Data.List.Basic
import Mathlib.Data.Nat.Notation

/-!
# Runs of deterministic machines

A machine answers each event and moves to its next state. A run keeps every event with its
answer. An invariant of one step holds after every run, and a step-by-step simulation of
one machine by another relates their whole runs.
-/

namespace Machine

variable {S E O : Type*}

/-- Run a machine over a list of events, keeping each event with its answer. -/
def run (step : S → E → S × O) : S → List E → List (E × O) × S
  | s, [] => ([], s)
  | s, e :: events =>
    let rest := run step (step s e).1 events
    ((e, (step s e).2) :: rest.1, rest.2)

/-- What every step preserves holds after every run. -/
theorem run_invariant {step : S → E → S × O} {inv : S → Prop}
    (hstep : ∀ s e, inv s → inv (step s e).1) {s : S} (hs : inv s) (events : List E) :
    inv (run step s events).2 := by
  induction events generalizing s with
  | nil => exact hs
  | cons e events ih => exact ih (hstep s e hs)

/-- What every step says of its event and its answer holds of the whole log. -/
theorem run_log {step : S → E → S × O} {inv : S → Prop} {good : E → O → Prop}
    (hstep : ∀ s e, inv s → inv (step s e).1) (hgood : ∀ s e, inv s → good e (step s e).2)
    {s : S} (hs : inv s) (events : List E) :
    ∀ entry ∈ (run step s events).1, good entry.1 entry.2 := by
  induction events generalizing s with
  | nil => simp [run]
  | cons e events ih =>
    rw [run, List.forall_mem_cons]
    exact ⟨hgood s e hs, ih (hstep s e hs)⟩

/-- A machine whose steps are simulated has simulated runs. -/
theorem run_simulation {S' E' O' : Type*} {step : S → E → S × O} {step' : S' → E' → S' × O'}
    {inv : S → Prop} {state : S → S'} {event : E → E'} {answer : O → O'}
    (hstep : ∀ s e, inv s → inv (step s e).1)
    (hsim : ∀ s e, inv s → step' (state s) (event e) = (state (step s e).1, answer (step s e).2))
    {s : S} (hs : inv s) (events : List E) :
    run step' (state s) (events.map event) =
      ((run step s events).1.map (Prod.map event answer), state (run step s events).2) := by
  induction events generalizing s with
  | nil => rfl
  | cons e events ih => simp [run, hsim s e hs, ih (hstep s e hs)]

end Machine
