import Mathlib.Data.Nat.Digits.Defs
import RealityCore.Library.PythonText

/-!
# Reading decimal digits

`int(text)` for a run of ASCII digits. Different runs can have one value only through
leading zeros: without them the digits are those that `str` writes. Other texts are read with their
white space, sign and underscores.
-/

namespace Python

/-- `int(digits)` for a run of ASCII digits. -/
def decimal (digits : Str) : ℕ := Nat.ofDigitChars 10 digits 0

/-- `sys.get_int_max_str_digits()` -/
def maxStrDigits : ℕ := 4300

/-- The white space around a number: that of `str.isspace`, but for the ASCII separators. -/
def isIntSpace (c : Char) : Bool := isSpace c && !(28 ≤ c.toNat && c.toNat ≤ 31)

/-- The values of decimal characters, between which single underscores may stand. -/
def digitGroups? (decimal : Char → Option ℕ) (text : Str) : Option (List ℕ) :=
  ((text.splitOn '_').mapM fun group => if group = [] then none else group.mapM decimal).map
    List.flatten

/-- `int(text)` for the values of the decimal characters, with `none` for `ValueError`. -/
def intOfText? (decimal : Char → Option ℕ) (text : Str) : Option ℤ := do
  let number := (text.dropWhile isIntSpace).rdropWhile isIntSpace
  let (sign, unsigned) : ℤ × Str :=
    match number with
    | '-' :: rest => (-1, rest)
    | '+' :: rest => (1, rest)
    | _ => (1, number)
  let digits ← digitGroups? decimal unsigned
  if maxStrDigits < digits.length then none else some (sign * Nat.ofDigits 10 digits.reverse)

/-- A run of digits that `str` can have written. -/
def NoLeadingZero (digits : Str) : Prop := digits.head? = some '0' → digits = ['0']

instance (digits : Str) : Decidable (NoLeadingZero digits) := by
  unfold NoLeadingZero
  infer_instance

/-- Reading inverts writing. -/
theorem decimal_toDigits (n : ℕ) : decimal (Nat.toDigits 10 n) = n :=
  Nat.ofDigitChars_ten_toDigits

/-- The last digit is the least significant. -/
theorem decimal_append_singleton (digits : Str) (c : Char) :
    decimal (digits ++ [c]) = 10 * decimal digits + (c.toNat - '0'.toNat) := by
  simp [decimal, Nat.ofDigitChars_append, Nat.ofDigitChars_cons]

/-- The value of a digit is below ten, and the digit is the one with its value. -/
theorem digitChar_of_isDigit {c : Char} (h : c.isDigit = true) :
    c.toNat - '0'.toNat < 10 ∧ Nat.digitChar (c.toNat - '0'.toNat) = c := by
  have hlow : 48 ≤ c.toNat := by
    simp only [Char.isDigit, Bool.and_eq_true, decide_eq_true_eq] at h
    exact h.1
  have hhigh : c.toNat ≤ 57 := by
    simp only [Char.isDigit, Bool.and_eq_true, decide_eq_true_eq] at h
    exact h.2
  have hlt : c.toNat - 48 < 10 := by omega
  refine ⟨hlt, ?_⟩
  apply Char.toNat_inj.mp
  show (Nat.digitChar (c.toNat - 48)).toNat = c.toNat
  rw [Nat.toNat_digitChar_of_lt_ten hlt]
  omega

/-- A run without a leading zero has a positive value, unless it is the digit zero. -/
theorem decimal_pos {digits : Str} (hdigits : ∀ c ∈ digits, c.isDigit = true)
    (hne : digits ≠ []) (hzero : digits.head? ≠ some '0') : 0 < decimal digits := by
  induction digits using List.reverseRecOn with
  | nil => exact absurd rfl hne
  | append_singleton digits c ih =>
    rw [decimal_append_singleton]
    cases digits with
    | nil =>
      have hc := digitChar_of_isDigit (hdigits c (by simp))
      rcases Nat.eq_zero_or_pos (c.toNat - '0'.toNat) with h0 | hpos
      · rw [h0] at hc
        exact absurd (congrArg some hc.2.symm) hzero
      · omega
    | cons d digits =>
      have := ih (fun e he => hdigits e (List.mem_append_left _ he)) (by simp)
        (by simpa using hzero)
      omega

/-- Writing inverts reading on digits without a leading zero. -/
theorem toDigits_decimal {digits : Str} (hdigits : ∀ c ∈ digits, c.isDigit = true)
    (hne : digits ≠ []) (hzero : NoLeadingZero digits) :
    Nat.toDigits 10 (decimal digits) = digits := by
  induction digits using List.reverseRecOn with
  | nil => exact absurd rfl hne
  | append_singleton digits c ih =>
    obtain ⟨hlt, hchar⟩ := digitChar_of_isDigit (hdigits c (by simp))
    rw [decimal_append_singleton]
    cases digits with
    | nil =>
      have hnil : decimal [] = 0 := rfl
      rw [hnil, Nat.mul_zero, Nat.zero_add, Nat.toDigits_of_lt_base hlt, hchar, List.nil_append]
    | cons d digits =>
      have hrun : ∀ e ∈ d :: digits, e.isDigit = true := fun e he =>
        hdigits e (List.mem_append_left _ he)
      have hhead : (d :: digits).head? ≠ some '0' := by
        intro h0
        have := hzero (by simpa using h0)
        simp at this
      have hpos := decimal_pos hrun (List.cons_ne_nil d digits) hhead
      rw [← Nat.toDigits_append_toDigits (by decide) hpos hlt, Nat.toDigits_of_lt_base hlt, hchar,
        ih hrun (List.cons_ne_nil d digits) fun h0 => absurd h0 hhead]

end Python
