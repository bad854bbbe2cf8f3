import Mathlib.Data.List.Basic
import Mathlib.Order.Defs.Unbundled

/-!
# Orders on the nodes of a hierarchy

A node is addressed by the list of entries from the root down to it. A sibling relation,
which may depend on the node above, orders the entries of one parent. The induced relation
on addresses puts a node before everything below it and otherwise compares the two entries
at the deepest shared ancestor. It is a strict total order when every sibling relation is
one.
-/

namespace Hierarchy

variable {α : Type*}

/-- A node precedes what is below it; otherwise the first differing entries decide. -/
def Precedes [DecidableEq α] (sibling : List α → α → α → Prop) : List α → List α → List α → Prop
  | _, _, [] => False
  | _, [], _ :: _ => True
  | above, a :: xs, b :: ys =>
    if a = b then Precedes sibling (above ++ [a]) xs ys else sibling above a b

variable [DecidableEq α] {sibling : List α → α → α → Prop}

instance decidablePrecedes [∀ above, DecidableRel (sibling above)] :
    ∀ above xs ys, Decidable (Precedes sibling above xs ys)
  | _, [], [] => isFalse id
  | _, _ :: _, [] => isFalse id
  | _, [], _ :: _ => isTrue trivial
  | above, a :: xs, b :: ys =>
    if h : a = b then
      have := decidablePrecedes (above ++ [a]) xs ys
      decidable_of_iff (Precedes sibling (above ++ [a]) xs ys) (by rw [Precedes, if_pos h])
    else decidable_of_iff (sibling above a b) (by rw [Precedes, if_neg h])

@[simp] theorem not_precedes_nil (above xs : List α) : ¬Precedes sibling above xs [] := by
  cases xs <;> exact id

@[simp] theorem precedes_nil_cons (above ys : List α) (b : α) :
    Precedes sibling above [] (b :: ys) := trivial

/-- Equal entries lead to the next level. -/
theorem precedes_cons_same (above xs ys : List α) (a : α) :
    Precedes sibling above (a :: xs) (a :: ys) ↔ Precedes sibling (above ++ [a]) xs ys := by
  rw [Precedes, if_pos rfl]

/-- Different entries are compared as siblings. -/
theorem precedes_cons_of_ne {above xs ys : List α} {a b : α} (h : a ≠ b) :
    Precedes sibling above (a :: xs) (b :: ys) ↔ sibling above a b := by
  rw [Precedes, if_neg h]

/-- Addresses are compared below their shared ancestor. -/
theorem precedes_append (above common xs ys : List α) :
    Precedes sibling above (common ++ xs) (common ++ ys) ↔
      Precedes sibling (above ++ common) xs ys := by
  induction common generalizing above with
  | nil => simp
  | cons a common ih => simp [precedes_cons_same, ih]

/-- A node precedes every node below it. -/
theorem precedes_below (above xs below : List α) (h : below ≠ []) :
    Precedes sibling above xs (xs ++ below) := by
  obtain ⟨b, ys, rfl⟩ := List.exists_cons_of_ne_nil h
  have hfirst : Precedes sibling (above ++ xs) [] (b :: ys) := precedes_nil_cons _ ys b
  simpa using (precedes_append above xs [] (b :: ys)).mpr hfirst

/-- No node precedes itself. -/
theorem precedes_irrefl (above xs : List α) : ¬Precedes sibling above xs xs := by
  induction xs generalizing above with
  | nil => simp
  | cons a xs ih => rw [precedes_cons_same]; exact ih _

section Order

variable [∀ above, IsStrictTotalOrder α (sibling above)]

/-- Precedence is transitive: the three first entries are equal or ordered siblings. -/
theorem precedes_trans (above xs ys zs : List α) (hxy : Precedes sibling above xs ys)
    (hyz : Precedes sibling above ys zs) : Precedes sibling above xs zs := by
  induction xs generalizing above ys zs with
  | nil =>
    cases zs with
    | nil => simp at hyz
    | cons c zs => trivial
  | cons a xs ih =>
    cases ys with
    | nil => simp at hxy
    | cons b ys =>
      cases zs with
      | nil => simp at hyz
      | cons c zs =>
        by_cases hab : a = b
        · subst hab
          by_cases hac : a = c
          · subst hac
            rw [precedes_cons_same] at hxy hyz ⊢
            exact ih _ ys zs hxy hyz
          · rwa [precedes_cons_of_ne hac] at hyz ⊢
        · rw [precedes_cons_of_ne hab] at hxy
          by_cases hbc : b = c
          · subst hbc
            rwa [precedes_cons_of_ne hab]
          · rw [precedes_cons_of_ne hbc] at hyz
            have hac : sibling above a c := IsTrans.trans a b c hxy hyz
            have hne : a ≠ c := by
              intro h
              exact irrefl (r := sibling above) a (h ▸ hac)
            rwa [precedes_cons_of_ne hne]

/-- Two nodes of which neither precedes the other are the same node. -/
theorem precedes_trichotomous (above xs ys : List α) (hxy : ¬Precedes sibling above xs ys)
    (hyx : ¬Precedes sibling above ys xs) : xs = ys := by
  induction xs generalizing above ys with
  | nil =>
    cases ys with
    | nil => rfl
    | cons b ys => exact absurd trivial hxy
  | cons a xs ih =>
    cases ys with
    | nil => exact absurd trivial hyx
    | cons b ys =>
      by_cases hab : a = b
      · subst hab
        rw [precedes_cons_same] at hxy hyx
        rw [ih _ ys hxy hyx]
      · rw [precedes_cons_of_ne hab] at hxy
        rw [precedes_cons_of_ne (Ne.symm hab)] at hyx
        exact absurd (Std.Trichotomous.trichotomous (r := sibling above) a b hxy hyx) hab

end Order

end Hierarchy
