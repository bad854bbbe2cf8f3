import Mathlib.Algebra.Group.Int.Defs
import Mathlib.Algebra.Group.Nat.Defs

/-!
# Exact arithmetic on 64-bit words

A `long` is a 64-bit two's complement word, and the machine operations wrap. The exact
operations of `java.lang.Math` return the wrapped word only when it is the mathematical
result and raise `ArithmeticException` otherwise.
-/

namespace Java

/-- A Java `long`. -/
abbrev Long := Int64

/-- The integers a `long` can hold. -/
def InRange (n : ℤ) : Prop := -2 ^ 63 ≤ n ∧ n ≤ 2 ^ 63 - 1

instance (n : ℤ) : Decidable (InRange n) := inferInstanceAs (Decidable (_ ∧ _))

/-- Every `long` is in range. -/
theorem inRange_toInt (x : Long) : InRange x.toInt :=
  ⟨x.le_toInt, Int.le_sub_one_of_lt x.toInt_lt⟩

/-- Every integer in range is the value of a `long`. -/
theorem exists_toInt_eq {n : ℤ} (h : InRange n) : ∃ x : Long, x.toInt = n :=
  ⟨Int64.ofInt n, Int64.toInt_ofInt_of_le h.1 (Int.lt_of_le_sub_one h.2)⟩

/-- Raised when an exact operation overflows. -/
inductive ArithmeticException where
  | overflow
  deriving DecidableEq, Repr

/-- Return the wrapped word when it is the exact result, and raise otherwise. -/
def exact (wrapped : Long) (result : ℤ) : Except ArithmeticException Long :=
  if wrapped.toInt = result then .ok wrapped else .error .overflow

/-- `Math.addExact` -/
def addExact (x y : Long) : Except ArithmeticException Long := exact (x + y) (x.toInt + y.toInt)

/-- `Math.subtractExact` -/
def subtractExact (x y : Long) : Except ArithmeticException Long :=
  exact (x - y) (x.toInt - y.toInt)

/-- `Math.multiplyExact` -/
def multiplyExact (x y : Long) : Except ArithmeticException Long :=
  exact (x * y) (x.toInt * y.toInt)

/-- `Math.negateExact` -/
def negateExact (x : Long) : Except ArithmeticException Long := exact (-x) (-x.toInt)

/-- `Math.incrementExact` -/
def incrementExact (x : Long) : Except ArithmeticException Long := exact (x + 1) (x.toInt + 1)

/-- `Long.compare` -/
def compare (x y : Long) : ℤ := if x.toInt < y.toInt then -1 else if x = y then 0 else 1

/-- Reduction modulo `2 ^ 64` keeps the integers in range. -/
theorem bmod_eq_iff_inRange {n : ℤ} : n.bmod (2 ^ 64) = n ↔ InRange n := by
  constructor
  · intro h
    have hlow := Int.le_bmod (x := n) (m := 2 ^ 64) (by decide)
    have hhigh := Int.bmod_lt (x := n) (m := 2 ^ 64) (by decide)
    simp only [InRange]
    omega
  · rintro ⟨hlow, hhigh⟩
    exact Int.bmod_eq_of_le (by omega) (by omega)

/-- The specification of an exact operation whose machine form wraps the exact result. -/
theorem exact_eq_ok_iff {wrapped : Long} {result : ℤ}
    (hwrapped : wrapped.toInt = result.bmod (2 ^ 64)) {z : Long} :
    exact wrapped result = .ok z ↔ InRange result ∧ z.toInt = result := by
  rw [← bmod_eq_iff_inRange, ← hwrapped, exact]
  split
  case isTrue h =>
    simp only [Except.ok.injEq, h, true_and]
    exact ⟨fun hz => hz ▸ h, fun hz => Int64.toInt_inj.mp (h.trans hz.symm)⟩
  case isFalse h => simp [h]

/-- Exact addition returns exactly the sums in range. -/
theorem addExact_eq_ok_iff {x y z : Long} :
    addExact x y = .ok z ↔ InRange (x.toInt + y.toInt) ∧ z.toInt = x.toInt + y.toInt :=
  exact_eq_ok_iff (Int64.toInt_add x y)

/-- Exact subtraction returns exactly the differences in range. -/
theorem subtractExact_eq_ok_iff {x y z : Long} :
    subtractExact x y = .ok z ↔ InRange (x.toInt - y.toInt) ∧ z.toInt = x.toInt - y.toInt :=
  exact_eq_ok_iff (Int64.toInt_sub x y)

/-- Exact multiplication returns exactly the products in range. -/
theorem multiplyExact_eq_ok_iff {x y z : Long} :
    multiplyExact x y = .ok z ↔ InRange (x.toInt * y.toInt) ∧ z.toInt = x.toInt * y.toInt :=
  exact_eq_ok_iff (Int64.toInt_mul x y)

/-- Exact negation returns exactly the negatives in range. -/
theorem negateExact_eq_ok_iff {x z : Long} :
    negateExact x = .ok z ↔ InRange (-x.toInt) ∧ z.toInt = -x.toInt :=
  exact_eq_ok_iff (Int64.toInt_neg x)

/-- Exact increment returns exactly the successors in range. -/
theorem incrementExact_eq_ok_iff {x z : Long} :
    incrementExact x = .ok z ↔ InRange (x.toInt + 1) ∧ z.toInt = x.toInt + 1 :=
  exact_eq_ok_iff (Int64.toInt_add x 1)

/-- The comparison has the sign of the exact difference, which may itself be out of range. -/
theorem sign_compare (x y : Long) : (compare x y).sign = (x.toInt - y.toInt).sign := by
  rcases Int.lt_trichotomy x.toInt y.toInt with hlt | heq | hgt
  · rw [compare, if_pos hlt, Int.sign_eq_neg_one_of_neg (by omega : x.toInt - y.toInt < 0)]
    rfl
  · rw [compare, if_neg (by omega), if_pos (Int64.toInt_inj.mp heq), heq, Int.sub_self]
  · have hne : x ≠ y := fun h => by rw [h] at hgt; omega
    rw [compare, if_neg (by omega), if_neg hne,
      Int.sign_eq_one_of_pos (by omega : 0 < x.toInt - y.toInt)]
    rfl

/-- Two words compare as zero exactly when they are equal. -/
theorem compare_eq_zero_iff {x y : Long} : compare x y = 0 ↔ x = y := by
  by_cases hlt : x.toInt < y.toInt
  · have hne : x ≠ y := fun h => by rw [h] at hlt; omega
    simp [compare, hlt, hne]
  · by_cases heq : x = y <;> simp [compare, hlt, heq]

end Java
