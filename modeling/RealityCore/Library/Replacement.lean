import RealityCore.Library.Outcome
import Mathlib.Data.List.Infix

/-!
# Replacements in a text

A replacement changes the first occurrence of a fragment, and leaves a text without the fragment as
it is. A test that each of some replacements makes an accepted text a refused one passes only when
the text holds all the fragments.
-/

namespace Python

open Outcome (forM_eq_error_iff forM_eq_ok_iff)

variable {α : Type} [BEq α] [LawfulBEq α]

/-- A fragment and what replaces it. -/
structure Replacement (α : Type) where
  old : List α
  new : List α

/-- `text.replace(old, new, 1)` -/
def Replacement.apply (replacement : Replacement α) (text : List α) : List α :=
  match text.dropInfix? replacement.old with
  | none => text
  | some (before, after) => before ++ replacement.new ++ after

/-- The first occurrence of a fragment in a text is between two parts of it. -/
structure IsFirstBetween (fragment text before after : List α) : Prop where
  eq : text = before ++ fragment ++ after
  first : ∀ earlier later, text = earlier ++ fragment ++ later → before.length ≤ earlier.length

/-- What surrounds the first occurrence. -/
theorem dropInfix?_eq_some {fragment text before after : List α} :
    text.dropInfix? fragment = some (before, after) ↔
      IsFirstBetween fragment text before after := by
  rw [List.dropInfix?_eq_some_iff]
  constructor
  · rintro ⟨⟨found, htext, hfound⟩, hfirst⟩
    obtain rfl := eq_of_beq hfound
    exact ⟨htext, fun earlier later h => hfirst earlier _ later h (beq_self_eq_true _)⟩
  · intro h
    refine ⟨⟨fragment, h.eq, beq_self_eq_true _⟩, fun earlier found later htext hfound => ?_⟩
    obtain rfl := eq_of_beq hfound
    exact h.first earlier later htext

omit [BEq α] [LawfulBEq α] in
/-- A fragment of a text has a first occurrence. -/
theorem exists_isFirstBetween {fragment text : List α} (h : fragment <:+: text) :
    ∃ before after, IsFirstBetween fragment text before after := by
  obtain ⟨before, after, htext⟩ := h
  induction hlength : before.length using Nat.strong_induction_on generalizing before after with
  | _ length ih =>
    by_cases hearlier : ∃ earlier later, text = earlier ++ fragment ++ later ∧
        earlier.length < before.length
    · obtain ⟨earlier, later, heq, hlt⟩ := hearlier
      exact ih _ (hlength ▸ hlt) _ _ heq.symm rfl
    · refine ⟨before, after, htext.symm, fun earlier later heq => ?_⟩
      exact Nat.le_of_not_lt fun hlt => hearlier ⟨earlier, later, heq, hlt⟩

/-- The first occurrence is replaced. -/
theorem Replacement.apply_eq {replacement : Replacement α} {text before after : List α}
    (h : IsFirstBetween replacement.old text before after) :
    replacement.apply text = before ++ replacement.new ++ after := by
  rw [apply, dropInfix?_eq_some.mpr h]

/-- A text without the fragment is left as it is. -/
theorem Replacement.apply_of_absent {replacement : Replacement α} {text : List α}
    (h : ¬replacement.old <:+: text) : replacement.apply text = text := by
  rw [apply]
  cases hdrop : text.dropInfix? replacement.old with
  | none => rfl
  | some parts => exact absurd ⟨parts.1, parts.2, (dropInfix?_eq_some.mp hdrop).eq.symm⟩ h

/-- A replacement lengthens a text by no more than what it puts in. -/
theorem Replacement.length_apply_le (replacement : Replacement α) (text : List α) :
    (replacement.apply text).length ≤ text.length + replacement.new.length := by
  rw [apply]
  cases hdrop : text.dropInfix? replacement.old with
  | none => exact Nat.le_add_right _ _
  | some parts =>
    have hlength := congrArg List.length (dropInfix?_eq_some.mp hdrop).eq
    simp only [List.length_append] at hlength ⊢
    omega

section Mutations

variable {ε : Type} {accepts : List α → Prop} {check : List α → Except ε Unit}

/-- A replacement whose fragment occurs in a text and that makes it one that is not accepted. -/
def Replacement.Breaks (replacement : Replacement α) (accepts : List α → Prop) (text : List α) :
    Prop :=
  ∃ before after, IsFirstBetween replacement.old text before after ∧
    ¬accepts (before ++ replacement.new ++ after)

/-- An accepted text is made one that is not accepted only by a replacement in it. -/
theorem Replacement.breaks_iff {replacement : Replacement α} {text : List α}
    (h : accepts text) :
    replacement.Breaks accepts text ↔ ¬accepts (replacement.apply text) := by
  constructor
  · rintro ⟨before, after, hfirst, hrefused⟩
    rwa [apply_eq hfirst]
  · intro hrefused
    by_cases hinfix : replacement.old <:+: text
    · obtain ⟨before, after, hfirst⟩ := exists_isFirstBetween hinfix
      exact ⟨before, after, hfirst, apply_eq hfirst ▸ hrefused⟩
    · rw [apply_of_absent hinfix] at hrefused
      exact absurd h hrefused

/-- One mutation: refusals of the expected kind are what the test is for. -/
def expectRefusal (isRefusal : ε → Bool) (accepted : ε) (outcome : Except ε Unit) :
    Except ε Unit :=
  match outcome with
  | .ok () => .error accepted
  | .error error => if isRefusal error then .ok () else .error error

/-- A mutation passes the test when it is refused. -/
theorem expectRefusal_eq_ok_iff {isRefusal : ε → Bool} {accepted : ε} {outcome : Except ε Unit} :
    expectRefusal isRefusal accepted outcome = .ok () ↔
      ∃ error, outcome = .error error ∧ isRefusal error = true := by
  cases outcome with
  | ok => simp [expectRefusal]
  | error error => simp [expectRefusal]

/-- A mutation fails the test when it is accepted, or when its check fails in another way. -/
theorem expectRefusal_eq_error_iff {isRefusal : ε → Bool} {accepted error : ε}
    {outcome : Except ε Unit} :
    expectRefusal isRefusal accepted outcome = .error error ↔
      outcome = .ok () ∧ error = accepted ∨ outcome = .error error ∧ isRefusal error = false := by
  cases outcome with
  | ok =>
    simp only [expectRefusal, Except.error.injEq, true_and, reduceCtorEq, false_and, or_false]
    exact eq_comm
  | error raised =>
    cases hraised : isRefusal raised with
    | true =>
      simp only [expectRefusal, hraised, if_true, reduceCtorEq, false_and, false_or, false_iff,
        Except.error.injEq, not_and, Bool.not_eq_false]
      rintro rfl
      exact hraised
    | false =>
      simp only [expectRefusal, hraised, Bool.false_eq_true, if_false, reduceCtorEq, false_and,
        false_or, Except.error.injEq]
      constructor
      · rintro rfl
        exact ⟨rfl, hraised⟩
      · exact And.left

section Loop

variable {γ : Type} {isRefusal : ε → Bool} {accepted : γ → ε} {replacement : γ → Replacement α}
  {mutations : List γ} {text : List α}

/-- A mutation passes the test when it breaks the text. -/
theorem expectRefusal_apply_eq_ok_iff {replacement : Replacement α} {accepted : ε}
    (hrefuses : ∀ text, (∃ error, check text = .error error ∧ isRefusal error = true) ↔
      ¬accepts text) (h : accepts text) :
    expectRefusal isRefusal accepted (check (replacement.apply text)) = .ok () ↔
      replacement.Breaks accepts text := by
  rw [expectRefusal_eq_ok_iff, Replacement.breaks_iff h, hrefuses]

/-- A test passes exactly when each of its replacements breaks the text. -/
theorem forM_expectRefusal_iff
    (hrefuses : ∀ text, (∃ error, check text = .error error ∧ isRefusal error = true) ↔
      ¬accepts text) (h : accepts text) :
    (mutations.forM fun mutation =>
        expectRefusal isRefusal (accepted mutation)
          (check ((replacement mutation).apply text))) = .ok () ↔
      ∀ mutation ∈ mutations, (replacement mutation).Breaks accepts text :=
  forM_eq_ok_iff.trans
    (forall₂_congr fun _ _ => expectRefusal_apply_eq_ok_iff hrefuses h)

/-- A test fails at the first of its replacements that does not break the text. -/
theorem forM_expectRefusal_eq_error_iff
    (hrefuses : ∀ text, (∃ error, check text = .error error ∧ isRefusal error = true) ↔
      ¬accepts text) (h : accepts text) {error : ε} :
    (mutations.forM fun mutation =>
        expectRefusal isRefusal (accepted mutation)
          (check ((replacement mutation).apply text))) = .error error ↔
      ∃ front mutation rest, mutations = front ++ mutation :: rest ∧
        (∀ earlier ∈ front, (replacement earlier).Breaks accepts text) ∧
        (check ((replacement mutation).apply text) = .ok () ∧ error = accepted mutation ∨
          check ((replacement mutation).apply text) = .error error ∧
            isRefusal error = false) := by
  refine forM_eq_error_iff.trans (exists₃_congr fun front mutation rest => ?_)
  rw [expectRefusal_eq_error_iff]
  refine and_congr_right fun _ => and_congr_left fun _ => forall₂_congr fun earlier _ => ?_
  exact expectRefusal_apply_eq_ok_iff hrefuses h

end Loop

end Mutations

end Python
