import RealityCore.Money.Amount

/-!
# Expressions over amounts

An expression combines amounts by the four operations, and is evaluated operand by operand
from left to right. Its exact value is computed over the integers, with no width and no
currencies. Evaluation returns exactly when every leaf has one currency and the exact value
of every subexpression fits a `long`, and then it returns that value: an overflow on the
way is never compensated by a later operation, and a wrapped amount is never returned.
-/

namespace RealityCore

open Java (Long InRange)

/-- An expression over amounts. -/
inductive MoneyExpression where
  | amount (m : Money)
  | add (left right : MoneyExpression)
  | subtract (left right : MoneyExpression)
  | multiply (operand : MoneyExpression) (multiplier : Long)
  | negate (operand : MoneyExpression)

namespace MoneyExpression

/-- Evaluate the operands from left to right, then the operation. -/
def evaluate : MoneyExpression → Except MoneyException Money
  | amount m => .ok m
  | add left right => do (← evaluate left).add (← evaluate right)
  | subtract left right => do (← evaluate left).subtract (← evaluate right)
  | multiply operand multiplier => do (← evaluate operand).multiply multiplier
  | negate operand => do (← evaluate operand).negate

/-- The mathematical value, in minor units. -/
def exactValue : MoneyExpression → ℤ
  | amount m => m.minorUnits.toInt
  | add left right => exactValue left + exactValue right
  | subtract left right => exactValue left - exactValue right
  | multiply operand multiplier => exactValue operand * multiplier.toInt
  | negate operand => -exactValue operand

/-- The amounts at the leaves. -/
def leaves : MoneyExpression → List Money
  | amount m => [m]
  | add left right => leaves left ++ leaves right
  | subtract left right => leaves left ++ leaves right
  | multiply operand _ => leaves operand
  | negate operand => leaves operand

/-- The expression and everything below it. -/
def subexpressions : MoneyExpression → List MoneyExpression
  | amount m => [amount m]
  | add left right => add left right :: (subexpressions left ++ subexpressions right)
  | subtract left right => subtract left right :: (subexpressions left ++ subexpressions right)
  | multiply operand multiplier => multiply operand multiplier :: subexpressions operand
  | negate operand => negate operand :: subexpressions operand

/-- All leaves are amounts of the given currency. -/
def HasCurrency (e : MoneyExpression) (currency : CurrencyCode) : Prop :=
  ∀ leaf ∈ e.leaves, leaf.currency = currency

/-- The exact value of every subexpression fits a `long`. -/
def Fits (e : MoneyExpression) : Prop := ∀ s ∈ e.subexpressions, InRange s.exactValue

/-- Every expression has a leaf. -/
theorem leaves_ne_nil (e : MoneyExpression) : e.leaves ≠ [] := by
  induction e with
  | amount m => simp [leaves]
  | add left right hl hr => simp [leaves, hl]
  | subtract left right hl hr => simp [leaves, hl]
  | multiply operand multiplier ih => exact ih
  | negate operand ih => exact ih

/-- The currency of the leaves is determined by the expression. -/
theorem HasCurrency.unique {e : MoneyExpression} {c d : CurrencyCode} (hc : e.HasCurrency c)
    (hd : e.HasCurrency d) : c = d := by
  obtain ⟨leaf, hleaf⟩ := List.exists_mem_of_ne_nil _ e.leaves_ne_nil
  exact (hc leaf hleaf).symm.trans (hd leaf hleaf)

/-- An expression is among its own subexpressions. -/
theorem mem_subexpressions (e : MoneyExpression) : e ∈ e.subexpressions := by
  cases e <;> simp [subexpressions]

/-- What the induction on expressions says of each operand. -/
private def Exact (e : MoneyExpression) : Prop :=
  ∀ m, e.evaluate = .ok m ↔
    e.HasCurrency m.currency ∧ e.Fits ∧ m.minorUnits.toInt = e.exactValue

/-- An operand of one currency that fits evaluates to its exact value. -/
private theorem Exact.returns {e : MoneyExpression} (he : Exact e) {c : CurrencyCode}
    (hc : e.HasCurrency c) (hfits : e.Fits) :
    ∃ m, e.evaluate = .ok m ∧ m.currency = c ∧ m.minorUnits.toInt = e.exactValue := by
  obtain ⟨units, hunits⟩ := Java.exists_toInt_eq (hfits e e.mem_subexpressions)
  exact ⟨⟨c, units⟩, (he ⟨c, units⟩).mpr ⟨hc, hfits, hunits⟩, rfl, hunits⟩

/-- An operation with the specification of an exact binary operation, on two operands. -/
private theorem binary_eq_ok_iff {left right : MoneyExpression} (hleft : Exact left)
    (hright : Exact right) {op : Money → Money → Except MoneyException Money} {f : ℤ → ℤ → ℤ}
    (hop : ∀ m n r, op m n = .ok r ↔ m.currency = n.currency ∧ r.currency = m.currency ∧
      InRange (f m.minorUnits.toInt n.minorUnits.toInt) ∧
        r.minorUnits.toInt = f m.minorUnits.toInt n.minorUnits.toInt) (r : Money) :
    (do op (← left.evaluate) (← right.evaluate)) = .ok r ↔
      (left.HasCurrency r.currency ∧ right.HasCurrency r.currency) ∧
        (InRange (f left.exactValue right.exactValue) ∧ left.Fits ∧ right.Fits) ∧
          r.minorUnits.toInt = f left.exactValue right.exactValue := by
  have hbind : (do op (← left.evaluate) (← right.evaluate)) = .ok r ↔
      ∃ m n, left.evaluate = .ok m ∧ right.evaluate = .ok n ∧ op m n = .ok r := by
    cases left.evaluate <;> cases right.evaluate <;> simp [bind, Except.bind]
  rw [hbind]
  constructor
  · rintro ⟨m, n, hm, hn, hr⟩
    obtain ⟨hmc, hmf, hmu⟩ := (hleft m).mp hm
    obtain ⟨hnc, hnf, hnu⟩ := (hright n).mp hn
    obtain ⟨hmn, hrm, hrange, hunits⟩ := (hop m n r).mp hr
    rw [hmu, hnu] at hrange hunits
    exact ⟨⟨hrm ▸ hmc, hrm ▸ hmn ▸ hnc⟩, ⟨hrange, hmf, hnf⟩, hunits⟩
  · rintro ⟨⟨hlc, hrc⟩, ⟨hrange, hlf, hrf⟩, hunits⟩
    obtain ⟨m, hm, hmc, hmu⟩ := hleft.returns hlc hlf
    obtain ⟨n, hn, hnc, hnu⟩ := hright.returns hrc hrf
    refine ⟨m, n, hm, hn, (hop m n r).mpr ⟨hmc.trans hnc.symm, hmc.symm, ?_⟩⟩
    rw [hmu, hnu]
    exact ⟨hrange, hunits⟩

/-- An operation with the specification of an exact unary operation, on one operand. -/
private theorem unary_eq_ok_iff {operand : MoneyExpression} (hoperand : Exact operand)
    {op : Money → Except MoneyException Money} {f : ℤ → ℤ}
    (hop : ∀ m r, op m = .ok r ↔ r.currency = m.currency ∧ InRange (f m.minorUnits.toInt) ∧
      r.minorUnits.toInt = f m.minorUnits.toInt) (r : Money) :
    (do op (← operand.evaluate)) = .ok r ↔
      operand.HasCurrency r.currency ∧ (InRange (f operand.exactValue) ∧ operand.Fits) ∧
        r.minorUnits.toInt = f operand.exactValue := by
  have hbind : (do op (← operand.evaluate)) = .ok r ↔
      ∃ m, operand.evaluate = .ok m ∧ op m = .ok r := by
    cases operand.evaluate <;> simp [bind, Except.bind]
  rw [hbind]
  constructor
  · rintro ⟨m, hm, hr⟩
    obtain ⟨hmc, hmf, hmu⟩ := (hoperand m).mp hm
    obtain ⟨hrm, hrange, hunits⟩ := (hop m r).mp hr
    rw [hmu] at hrange hunits
    exact ⟨hrm ▸ hmc, ⟨hrange, hmf⟩, hunits⟩
  · rintro ⟨hc, ⟨hrange, hf⟩, hunits⟩
    obtain ⟨m, hm, hmc, hmu⟩ := hoperand.returns hc hf
    refine ⟨m, hm, (hop m r).mpr ⟨hmc.symm, ?_⟩⟩
    rw [hmu]
    exact ⟨hrange, hunits⟩

/-- Evaluation returns `m` exactly when the leaves have its currency, every subexpression
fits a `long`, and its units are the exact value. -/
theorem evaluate_eq_ok_iff (e : MoneyExpression) (m : Money) :
    e.evaluate = .ok m ↔
      e.HasCurrency m.currency ∧ e.Fits ∧ m.minorUnits.toInt = e.exactValue := by
  induction e generalizing m with
  | amount a =>
    obtain ⟨c, u⟩ := a
    obtain ⟨d, v⟩ := m
    have hrange := Java.inRange_toInt u
    simp only [evaluate, Except.ok.injEq, Money.mk.injEq, HasCurrency, leaves, Fits,
      subexpressions, exactValue, List.mem_singleton, forall_eq, hrange, true_and,
      Int64.toInt_inj]
    tauto
  | add left right hl hr =>
    simp only [HasCurrency, Fits, leaves, subexpressions, exactValue, List.forall_mem_append,
      List.forall_mem_cons]
    exact @binary_eq_ok_iff left right hl hr Money.add (· + ·)
      (fun _ _ _ => Money.add_eq_ok_iff) m
  | subtract left right hl hr =>
    simp only [HasCurrency, Fits, leaves, subexpressions, exactValue, List.forall_mem_append,
      List.forall_mem_cons]
    exact @binary_eq_ok_iff left right hl hr Money.subtract (· - ·)
      (fun _ _ _ => Money.subtract_eq_ok_iff) m
  | multiply operand multiplier ih =>
    simp only [HasCurrency, Fits, leaves, subexpressions, exactValue, List.forall_mem_cons]
    exact @unary_eq_ok_iff operand ih (·.multiply multiplier) (· * multiplier.toInt)
      (fun _ _ => Money.multiply_eq_ok_iff) m
  | negate operand ih =>
    simp only [HasCurrency, Fits, leaves, subexpressions, exactValue, List.forall_mem_cons]
    exact @unary_eq_ok_iff operand ih Money.negate (-·) (fun _ _ => Money.negate_eq_ok_iff) m

/-- Evaluation of an expression is exact or raises, and comparison never overflows: it
returns exactly when the leaves have one currency and every subexpression fits, with that
currency and the exact value; and returned amounts of one currency compare by the sign of
their exact difference. -/
theorem evaluate_exact_or_raises :
    (∀ e : MoneyExpression,
      ((∃ m, e.evaluate = .ok m) ↔ (∃ c, e.HasCurrency c) ∧ e.Fits) ∧
      (∀ m, e.evaluate = .ok m →
        (∀ c, e.HasCurrency c ↔ c = m.currency) ∧ m.minorUnits.toInt = e.exactValue) ∧
      (¬((∃ c, e.HasCurrency c) ∧ e.Fits) →
        (∃ left right, e.evaluate = .error (.currencyMismatch left right)) ∨
          ∃ cause, e.evaluate = .error (.arithmetic cause))) ∧
    (∀ (d e : MoneyExpression) (m n : Money), d.evaluate = .ok m → e.evaluate = .ok n →
      m.currency = n.currency →
        ∃ order, m.compareTo n = .ok order ∧ order.sign = (d.exactValue - e.exactValue).sign ∧
          (order = 0 ↔ m.equals n = true)) := by
  have hreturns (e : MoneyExpression) :
      (∃ m, e.evaluate = .ok m) ↔ (∃ c, e.HasCurrency c) ∧ e.Fits := by
    constructor
    · rintro ⟨m, hm⟩
      obtain ⟨hc, hfits, -⟩ := (evaluate_eq_ok_iff e m).mp hm
      exact ⟨⟨m.currency, hc⟩, hfits⟩
    · rintro ⟨⟨c, hc⟩, hfits⟩
      obtain ⟨m, hm, -⟩ := Exact.returns (evaluate_eq_ok_iff e) hc hfits
      exact ⟨m, hm⟩
  refine ⟨fun e => ⟨hreturns e, fun m hm => ?_, fun hnot => ?_⟩, fun d e m n hm hn hc => ?_⟩
  · obtain ⟨hc, -, hvalue⟩ := (evaluate_eq_ok_iff e m).mp hm
    exact ⟨fun c => ⟨fun hc' => hc'.unique hc, fun h => h ▸ hc⟩, hvalue⟩
  · cases heval : e.evaluate with
    | ok m => exact absurd ((hreturns e).mp ⟨m, heval⟩) hnot
    | error raised =>
      cases raised with
      | currencyMismatch left right => exact Or.inl ⟨left, right, rfl⟩
      | arithmetic cause => exact Or.inr ⟨cause, rfl⟩
  · rw [← ((evaluate_eq_ok_iff d m).mp hm).2.2, ← ((evaluate_eq_ok_iff e n).mp hn).2.2]
    exact Money.compareTo_of_same_currency hc

end MoneyExpression

end RealityCore
