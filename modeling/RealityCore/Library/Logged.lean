import RealityCore.Library.Outcome

/-!
# Computations that keep a log

A computation notes what it does until it fails. It follows a plan when its log is a first part of
the plan, and the whole plan once the computation succeeds; computations in sequence follow their
plans one after the other.
-/

/-- What a computation has noted, and how it ended. -/
structure Logged (C ε α : Type) where
  log : List C
  outcome : Except ε α

namespace Logged

variable {C ε α β : Type} {x : Logged C ε α} {f : α → Logged C ε β}

/-- A computation that notes nothing. -/
def of (outcome : Except ε α) : Logged C ε α := ⟨[], outcome⟩

/-- A computation that notes one item. -/
def note (item : C) (outcome : Except ε α) : Logged C ε α := ⟨[item], outcome⟩

/-- The second computation starts where the first one succeeds. -/
def andThen (x : Logged C ε α) (f : α → Logged C ε β) : Logged C ε β :=
  match x.outcome with
  | .error e => ⟨x.log, .error e⟩
  | .ok a => ⟨x.log ++ (f a).log, (f a).outcome⟩

instance : Monad (Logged C ε) where
  pure a := of (.ok a)
  bind := andThen

@[simp] theorem outcome_of (outcome : Except ε α) : (of outcome : Logged C ε α).outcome = outcome :=
  rfl

@[simp] theorem outcome_note (item : C) (outcome : Except ε α) :
    (note item outcome).outcome = outcome := rfl

/-- A sequence succeeds when both parts do. -/
theorem outcome_bind_eq_ok_iff {b : β} :
    (x >>= f).outcome = .ok b ↔ ∃ a, x.outcome = .ok a ∧ (f a).outcome = .ok b := by
  change (x.andThen f).outcome = .ok b ↔ _
  rw [andThen]
  cases x.outcome <;> simp

/-- A computation that notes nothing only hands on its value. -/
theorem of_ok_bind (a : α) : (of (.ok a) >>= f : Logged C ε β) = f a := rfl

/-- The log is a first part of a plan, and the whole of it when the computation succeeds. -/
structure Follows (x : Logged C ε α) (plan : List C) : Prop where
  front : x.log <+: plan
  whole : ∀ a, x.outcome = .ok a → x.log = plan

/-- A computation that notes nothing follows the empty plan. -/
theorem follows_of (outcome : Except ε α) : (of outcome : Logged C ε α).Follows [] :=
  ⟨List.prefix_rfl, fun _ _ => rfl⟩

/-- A computation that notes one item follows the plan with this item. -/
theorem follows_note (item : C) (outcome : Except ε α) : (note item outcome).Follows [item] :=
  ⟨List.prefix_rfl, fun _ _ => rfl⟩

/-- A sequence follows the plan of its first part and then that of its second part. -/
theorem Follows.bind {plan rest : List C} (h : x.Follows plan)
    (hf : ∀ a, x.outcome = .ok a → (f a).Follows rest) : (x >>= f).Follows (plan ++ rest) := by
  change (x.andThen f).Follows (plan ++ rest)
  rw [andThen]
  cases hx : x.outcome with
  | error e => exact ⟨h.front.trans (List.prefix_append plan rest), by simp⟩
  | ok a =>
    dsimp only
    rw [h.whole a hx]
    refine ⟨(List.prefix_append_right_inj plan).mpr (hf a hx).front, fun b hb => ?_⟩
    rw [(hf a hx).whole b hb]

end Logged
