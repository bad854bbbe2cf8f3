import RealityCore.Library.Long
import RealityCore.Library.PythonText
import RealityCore.Library.Regex

/-!
# Money in minor units of one currency

An amount is a 64-bit number of minor units of a currency whose code has the reviewed
form. The binary operations check the currencies before any arithmetic, and every
operation is exact or raises. Each operation has one lemma saying when it returns and
what; the evaluation of expressions is built from these.
-/

namespace RealityCore

open Java (Long InRange ArithmeticException)
open Python (Str)
open Regex (Pattern fullMatch)

/-- `[A-Z][A-Z0-9]{2,7}` -/
def CurrencyCode.FORM : Pattern Char :=
  .seq (.set Char.isUpper) (.many (.set fun c => c.isUpper || c.isDigit) 2 (some 5))

/-- The upper-case code of one currency. -/
structure CurrencyCode where
  value : Str
  form : fullMatch CurrencyCode.FORM value = true
  deriving DecidableEq

/-- `CurrencyCode.of`, with the message of the exception for a malformed code. -/
def CurrencyCode.of (value : Str) : Except String CurrencyCode :=
  if form : fullMatch CurrencyCode.FORM value = true then .ok ⟨value, form⟩
  else .error "CurrencyCode must be 3-8 upper-case ASCII characters"

/-- An amount in minor units. -/
structure Money where
  currency : CurrencyCode
  minorUnits : Long
  deriving DecidableEq

/-- What the operations on amounts can raise. -/
inductive MoneyException where
  | currencyMismatch (left right : CurrencyCode)
  | arithmetic (cause : ArithmeticException)

/-- The text of the exception for two currencies. -/
def MoneyException.message : MoneyException → Str
  | .currencyMismatch left right =>
    "Money currencies must match: ".toList ++ left.value ++ " and ".toList ++ right.value
  | .arithmetic _ => "long overflow".toList

namespace Money

/-- Refuse to combine two currencies. -/
def requireSameCurrency (m other : Money) : Except MoneyException Unit :=
  if m.currency = other.currency then .ok ()
  else .error (.currencyMismatch m.currency other.currency)

/-- The amount of an exact operation on the units, `new Money(currency, units)`. -/
def ofExact (currency : CurrencyCode) :
    Except ArithmeticException Long → Except MoneyException Money
  | .ok units => .ok ⟨currency, units⟩
  | .error cause => .error (.arithmetic cause)

/-- `Money.add` -/
def add (m other : Money) : Except MoneyException Money := do
  requireSameCurrency m other
  ofExact m.currency (Java.addExact m.minorUnits other.minorUnits)

/-- `Money.subtract` -/
def subtract (m other : Money) : Except MoneyException Money := do
  requireSameCurrency m other
  ofExact m.currency (Java.subtractExact m.minorUnits other.minorUnits)

/-- `Money.multiply` -/
def multiply (m : Money) (multiplier : Long) : Except MoneyException Money :=
  ofExact m.currency (Java.multiplyExact m.minorUnits multiplier)

/-- `Money.negate` -/
def negate (m : Money) : Except MoneyException Money :=
  ofExact m.currency (Java.negateExact m.minorUnits)

/-- `Money.compareTo` -/
def compareTo (m other : Money) : Except MoneyException ℤ := do
  requireSameCurrency m other
  pure (Java.compare m.minorUnits other.minorUnits)

/-- `Money.equals` on another amount. -/
def equals (m other : Money) : Bool :=
  m.minorUnits == other.minorUnits && m.currency == other.currency

/-- An exact operation returns the amount with the given units in the given currency. -/
theorem ofExact_eq_ok_iff {currency : CurrencyCode} {result : Except ArithmeticException Long}
    {r : Money} :
    ofExact currency result = .ok r ↔ result = .ok r.minorUnits ∧ r.currency = currency := by
  obtain ⟨c, u⟩ := r
  cases result with
  | ok units =>
    simp only [ofExact, Except.ok.injEq, Money.mk.injEq]
    exact ⟨fun h => ⟨h.2, h.1.symm⟩, fun h => ⟨h.2.symm, h.1⟩⟩
  | error cause => simp [ofExact]

/-- The currency check passes before anything else is computed. -/
theorem requireSameCurrency_bind_eq_ok_iff {β : Type} {m other : Money}
    {next : Except MoneyException β} {r : β} :
    (do requireSameCurrency m other; next) = .ok r ↔
      m.currency = other.currency ∧ next = .ok r := by
  by_cases h : m.currency = other.currency <;>
    simp [requireSameCurrency, h, bind, Except.bind]

/-- Addition returns the exact sum of two amounts of one currency, when it is in range. -/
theorem add_eq_ok_iff {m other r : Money} :
    m.add other = .ok r ↔ m.currency = other.currency ∧ r.currency = m.currency ∧
      InRange (m.minorUnits.toInt + other.minorUnits.toInt) ∧
        r.minorUnits.toInt = m.minorUnits.toInt + other.minorUnits.toInt := by
  rw [add, requireSameCurrency_bind_eq_ok_iff, ofExact_eq_ok_iff, Java.addExact_eq_ok_iff]
  tauto

/-- Subtraction returns the exact difference of two amounts of one currency, when in range. -/
theorem subtract_eq_ok_iff {m other r : Money} :
    m.subtract other = .ok r ↔ m.currency = other.currency ∧ r.currency = m.currency ∧
      InRange (m.minorUnits.toInt - other.minorUnits.toInt) ∧
        r.minorUnits.toInt = m.minorUnits.toInt - other.minorUnits.toInt := by
  rw [subtract, requireSameCurrency_bind_eq_ok_iff, ofExact_eq_ok_iff,
    Java.subtractExact_eq_ok_iff]
  tauto

/-- Multiplication returns the exact product, when it is in range. -/
theorem multiply_eq_ok_iff {m r : Money} {multiplier : Long} :
    m.multiply multiplier = .ok r ↔ r.currency = m.currency ∧
      InRange (m.minorUnits.toInt * multiplier.toInt) ∧
        r.minorUnits.toInt = m.minorUnits.toInt * multiplier.toInt := by
  rw [multiply, ofExact_eq_ok_iff, Java.multiplyExact_eq_ok_iff]
  tauto

/-- Negation returns the exact negative, when it is in range. -/
theorem negate_eq_ok_iff {m r : Money} :
    m.negate = .ok r ↔ r.currency = m.currency ∧ InRange (-m.minorUnits.toInt) ∧
      r.minorUnits.toInt = -m.minorUnits.toInt := by
  rw [negate, ofExact_eq_ok_iff, Java.negateExact_eq_ok_iff]
  tauto

/-- Amounts of one currency compare by the sign of their exact difference. -/
theorem compareTo_of_same_currency {m other : Money} (h : m.currency = other.currency) :
    ∃ order, m.compareTo other = .ok order ∧
      order.sign = (m.minorUnits.toInt - other.minorUnits.toInt).sign ∧
      (order = 0 ↔ m.equals other = true) := by
  refine ⟨Java.compare m.minorUnits other.minorUnits, ?_, Java.sign_compare _ _, ?_⟩
  · simp [compareTo, requireSameCurrency_bind_eq_ok_iff, h, pure, Except.pure]
  · simp [Java.compare_eq_zero_iff, equals, h]

end Money

end RealityCore
