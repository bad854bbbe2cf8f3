import RealityCore.Library.PythonText

/-!
# Java strings, times and exceptions

Strings are lists of code points; their `length` counts UTF-16 code units. Instants are
seconds with nanoseconds within the second, and compare in that order.
-/

namespace Java

/-- A Java `String` without lone surrogates, as its list of code points. -/
abbrev Text := List Char

/-- The exceptions that the modeled classes raise. -/
inductive Throwable where
  | illegalArgument (message : Text)
  | nullPointer (message : Text)
  | arithmetic
  deriving DecidableEq

/-- `Character.isWhitespace`: Unicode separators other than the non-breaking ones, and the
separators among the control characters. -/
def isWhitespace (c : Char) : Bool :=
  Python.isSpace c && !(c.toNat == 0x85 || c.toNat == 0xa0 || c.toNat == 0x202f)
    && c.toNat != 0x2007

/-- `String.isBlank` -/
def isBlank (s : Text) : Bool := s.all isWhitespace

/-- `String.length`: code points outside the basic plane count twice. -/
def length (s : Text) : ℕ := (s.map fun c => if 0xffff < c.toNat then 2 else 1).sum

/-- A text of `n` code points has between `n` and `2 * n` code units. -/
theorem length_le (s : Text) : length s ≤ 2 * s.length := by
  induction s with
  | nil => rfl
  | cons c s ih =>
    simp only [length, List.map_cons, List.sum_cons, List.length_cons] at ih ⊢
    split <;> omega

/-- `java.time.Instant`: seconds of the epoch and nanoseconds within the second. -/
structure Instant where
  epochSecond : ℤ
  nano : ℕ
  inBounds : -31557014167219200 ≤ epochSecond ∧ epochSecond ≤ 31556889864403199
  nano_lt : nano < 1000000000
  deriving DecidableEq

/-- `Instant.isBefore` -/
def Instant.isBefore (s t : Instant) : Bool :=
  s.epochSecond < t.epochSecond || (s.epochSecond == t.epochSecond && s.nano < t.nano)

end Java
