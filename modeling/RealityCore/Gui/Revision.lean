import RealityCore.Library.JavaText
import RealityCore.Library.Long

/-!
# Revisions

A revision is a non-negative `long`. `next` is the only way forward, and it raises at the
largest `long` instead of wrapping to an earlier revision.
-/

namespace RealityCore

open Java (Long Text Throwable)

/-- Immutable non-negative aggregate or GUI revision. -/
structure Revision where
  value : Long
  nonneg : 0 ≤ value.toInt
  deriving DecidableEq

namespace Revision

/-- `Revision.of` -/
def of (value : Long) : Except Throwable Revision :=
  if h : value.toInt < 0 then .error (.illegalArgument "Revision cannot be negative".toList)
  else .ok ⟨value, Int.not_lt.mp h⟩

/-- `Revision.initial` -/
def initial : Revision := ⟨0, by decide⟩

/-- `Revision.next`: the only revision that directly follows this one. -/
def next (r : Revision) : Except Throwable Revision :=
  match Java.incrementExact r.value with
  | .ok value => of value
  | .error _ => .error .arithmetic

/-- `Revision.compareTo` -/
def compareTo (r other : Revision) : ℤ := Java.compare r.value other.value

/-- `Revision.isAfter` -/
def isAfter (r other : Revision) : Bool := 0 < compareTo r other

/-- `Revision.toString`, the decimal digits of the value. -/
def toText (r : Revision) : Text := (toString r.value.toInt.toNat).toList

/-- The revision as a natural number. -/
def number (r : Revision) : ℕ := r.value.toInt.toNat

/-- `Long.MAX_VALUE` -/
def maxNumber : ℕ := 2 ^ 63 - 1

/-- A revision is determined by its number. -/
theorem number_inj {r s : Revision} : r.number = s.number ↔ r = s := by
  constructor
  · intro h
    have hr := r.nonneg
    have hs := s.nonneg
    have hvalue : r.value.toInt = s.value.toInt := by
      simp only [number] at h
      omega
    obtain ⟨v, hv⟩ := r
    obtain ⟨w, hw⟩ := s
    simpa only [Revision.mk.injEq] using Int64.toInt_inj.mp hvalue
  · exact fun h => h ▸ rfl

/-- No revision is past `Long.MAX_VALUE`. -/
theorem number_le_maxNumber (r : Revision) : r.number ≤ maxNumber := by
  have h := (Java.inRange_toInt r.value).2
  simp only [number, maxNumber]
  omega

/-- A revision is after another one exactly when its number is larger. -/
theorem isAfter_iff {r s : Revision} : r.isAfter s = true ↔ s.number < r.number := by
  have hr := r.nonneg
  have hs := s.nonneg
  have hsign := Java.sign_compare r.value s.value
  rw [isAfter, compareTo, decide_eq_true_eq, ← Int.sign_eq_one_iff_pos, hsign,
    Int.sign_eq_one_iff_pos]
  simp only [number]
  omega

/-- Below the largest `long`, `next` returns the revision with the next number. -/
theorem next_of_lt {r : Revision} (h : r.number < maxNumber) :
    ∃ s, r.next = .ok s ∧ s.number = r.number + 1 := by
  have hnonneg := r.nonneg
  have hrange : Java.InRange (r.value.toInt + 1) := by
    simp only [number, maxNumber] at h
    simp only [Java.InRange]
    omega
  obtain ⟨v, hv⟩ := Java.exists_toInt_eq hrange
  have hnot : ¬v.toInt < 0 := by omega
  refine ⟨⟨v, Int.not_lt.mp hnot⟩, ?_, ?_⟩
  · rw [next, Java.incrementExact_eq_ok_iff.mpr ⟨hrange, hv⟩]
    simp [of, hnot]
  · simp only [number, hv]
    omega

/-- At the largest `long`, `next` raises. -/
theorem next_of_max {r : Revision} (h : r.number = maxNumber) : r.next = .error .arithmetic := by
  rw [next]
  cases hinc : Java.incrementExact r.value with
  | error _ => rfl
  | ok v =>
    have hrange := (Java.incrementExact_eq_ok_iff.mp hinc).1.2
    simp only [number, maxNumber] at h
    omega

/-- The decimal form of a revision is short. -/
theorem length_toText_le (r : Revision) : r.toText.length ≤ 19 := by
  have h := r.number_le_maxNumber
  simp only [number, maxNumber] at h
  rw [toText, String.length_toList]
  exact (Nat.length_repr_le_iff (by decide)).mpr (by omega)

end Revision

end RealityCore
