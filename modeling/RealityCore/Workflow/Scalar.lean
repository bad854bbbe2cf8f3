import RealityCore.Library.Outcome
import RealityCore.Library.PythonDict
import RealityCore.Library.PythonInt
import RealityCore.Library.RegexRuns

/-!
# Scalars and mapping lines of the workflow format

The parsed values, the text after a colon as a scalar, and a line split at its first colon.
Converting digits to an integer is total here: the interpreter's limit on their number is
not modelled.
-/

namespace RealityCore.Workflow

open Outcome (guard_eq_ok_iff)
open Python (Str Dict isSpace rstrip strip decimal partition)
open Regex (Pattern fullMatch)

/-- The values written after a colon. -/
inductive Scalar where
  | bool (value : Bool)
  | int (value : ℕ)
  | str (value : Str)
  deriving DecidableEq

/-- A string that was written as a block scalar. -/
def Scalar.IsText : Scalar → Prop
  | .str value => value.getLast? = some '\n'
  | _ => False

instance : DecidablePred Scalar.IsText
  | .bool _ => .isFalse id
  | .int _ => .isFalse id
  | .str value => inferInstanceAs (Decidable (value.getLast? = some '\n'))

/-- A parsed value: a dictionary in document order, a list or a scalar. -/
inductive Value where
  | map (entries : List (Str × Value))
  | list (items : List Value)
  | scalar (value : Scalar)

/-- How a run ends without a value; the fuel is the model's own. -/
inductive Failure where
  | workflowError (message : Str)
  | keyError (key : Str)
  | outOfFuel
  deriving DecidableEq

/-- `raise WorkflowError(message)` -/
def reject {α : Type} (message : String) : Except Failure α :=
  .error (.workflowError message.toList)

/-- `[A-Za-z0-9_.-]` -/
def isKeyChar (c : Char) : Bool := c.isAlphanum || c == '_' || c == '.' || c == '-'

/-- `[A-Za-z0-9_.-]+` -/
def KEY_RE : Pattern Char := .plus (.set isKeyChar)

/-- `[0-9]+` -/
def DIGITS_RE : Pattern Char := .plus (.set Char.isDigit)

/-- `{"'", '"'}` -/
def isQuote (c : Char) : Bool := c == '\x27' || c == '\x22'

/-- `("&", "*", "!", "[", "{")` -/
def isIndicator (c : Char) : Bool := "&*![\x7b".toList.contains c

/-- `_scalar(value)` -/
def scalar (value : Str) : Except Failure Value :=
  if value = [] then .ok (.map [])
  else if value = "true".toList ∨ value = "false".toList then
    .ok (.scalar (.bool (value == "true".toList)))
  else if fullMatch DIGITS_RE value then .ok (.scalar (.int (decimal value)))
  else if value.head?.any isQuote ∨ value.getLast?.any isQuote then
    reject "quoted YAML scalars are not accepted"
  else if value.head?.any isIndicator ∨ value = "null".toList ∨ value = "~".toList then
    reject "unsupported YAML scalar"
  else .ok (.scalar (.str value))

/-- `value[1:] if value.startswith(" ") else value` -/
def dropSpace : Str → Str
  | ' ' :: value => value
  | value => value

/-- At most one leading space is dropped. -/
theorem dropSpace_suffix (value : Str) : dropSpace value <:+ value := by
  unfold dropSpace
  split
  · exact List.suffix_cons _ _
  · exact List.suffix_refl _

/-- `_split_mapping(line)` -/
def splitMapping (line : Str) : Except Failure (Str × Str) :=
  if ':' ∉ line then reject "mapping line has no colon"
  else
    let (key, _, value) := partition line ':'
    if key = [] ∨ strip key ≠ key ∨ !fullMatch KEY_RE key then
      reject "mapping key is not canonical"
    else .ok (key, dropSpace value)

/-- `{"|", "|-", "|+", ">", ">-", ">+"}` -/
def blockIndicators : List Str := ["|", "|-", "|+", ">", ">-", ">+"].map String.toList

/-- The texts that `KEY_RE` matches. -/
def IsKey (key : Str) : Prop := key ≠ [] ∧ ∀ c ∈ key, isKeyChar c = true

instance (key : Str) : Decidable (IsKey key) :=
  decidable_of_iff (key ≠ [] ∧ key.all isKeyChar = true) (by rw [IsKey, List.all_eq_true])

/-- Key characters lie between the hyphen and the letter z, and the colon is not one. -/
theorem toNat_of_isKeyChar {c : Char} (h : isKeyChar c = true) :
    45 ≤ c.toNat ∧ c.toNat ≤ 122 ∧ c.toNat ≠ 58 := by
  have halpha : c.isAlpha = (decide (c.val ≥ 'A'.val ∧ c.val ≤ 'Z'.val) ||
      (decide (c.val ≥ 'a'.val) && decide (c.val ≤ 'z'.val))) := rfl
  simp only [isKeyChar, Char.isAlphanum, halpha, Char.isDigit, Bool.or_eq_true, Bool.and_eq_true,
    decide_eq_true_eq, beq_iff_eq, ge_iff_le, UInt32.le_iff_toNat_le] at h
  rcases h with ((h | rfl) | rfl) | rfl
  · change ((65 ≤ c.toNat ∧ c.toNat ≤ 90) ∨ (97 ≤ c.toNat ∧ c.toNat ≤ 122)) ∨
      (48 ≤ c.toNat ∧ c.toNat ≤ 57) at h
    omega
  all_goals decide

/-- A key character is not white space. -/
theorem isSpace_of_isKeyChar {c : Char} (h : isKeyChar c = true) : isSpace c = false := by
  have hrange := toNat_of_isKeyChar h
  have hspace : ¬isSpace c = true := by
    simp only [isSpace, Bool.or_eq_true, Bool.and_eq_true, decide_eq_true_eq, beq_iff_eq]
    omega
  simpa using hspace

/-- A key holds no colon. -/
theorem IsKey.colon_notMem {key : Str} (h : IsKey key) : ':' ∉ key := fun hmem =>
  (toNat_of_isKeyChar (h.2 ':' hmem)).2.2 rfl

/-- Removing white space leaves a key unchanged. -/
theorem IsKey.strip_eq {key : Str} (h : IsKey key) : strip key = key := by
  have hfront : key.dropWhile isSpace = key := by
    rw [List.dropWhile_eq_self_iff]
    exact fun hlen => by simpa using isSpace_of_isKeyChar (h.2 _ (List.getElem_mem hlen))
  rw [strip, hfront, Python.rstrip_eq_self_iff]
  exact fun hne => isSpace_of_isKeyChar (h.2 _ (List.getLast_mem hne))

/-- `KEY_RE` matches exactly the keys. -/
theorem fullMatch_KEY_RE_iff {key : Str} : fullMatch KEY_RE key = true ↔ IsKey key :=
  Regex.fullMatch_plus_set_iff

/-- A mapping line is a key, a colon and a rest that loses at most one leading space. -/
theorem splitMapping_eq_ok_iff {line key value : Str} :
    splitMapping line = .ok (key, value) ↔
      ∃ tail, line = key ++ ':' :: tail ∧ IsKey key ∧ value = dropSpace tail := by
  rw [splitMapping, reject, guard_eq_ok_iff, not_not]
  constructor
  · rintro ⟨hcolon, h⟩
    obtain ⟨front, tail, rfl, hfront⟩ := List.eq_append_cons_of_mem hcolon
    rw [Python.partition_append hfront] at h
    obtain ⟨hkey, h⟩ := guard_eq_ok_iff.mp h
    simp only [not_or, Bool.not_eq_true', Bool.not_eq_false] at hkey
    obtain ⟨rfl, rfl⟩ := Prod.mk.inj (Except.ok.inj h)
    exact ⟨tail, rfl, fullMatch_KEY_RE_iff.mp hkey.2.2, rfl⟩
  · rintro ⟨tail, rfl, hkey, rfl⟩
    refine ⟨by simp, ?_⟩
    rw [Python.partition_append hkey.colon_notMem]
    have hmatch := fullMatch_KEY_RE_iff.mpr hkey
    simp [hkey.1, hkey.strip_eq, hmatch]

/-- A text of digits. -/
def IsDigits (value : Str) : Prop := value ≠ [] ∧ ∀ c ∈ value, c.isDigit = true

instance (value : Str) : Decidable (IsDigits value) :=
  decidable_of_iff (value ≠ [] ∧ value.all Char.isDigit = true)
    (by rw [IsDigits, List.all_eq_true])

/-- `DIGITS_RE` matches exactly the texts of digits. -/
theorem fullMatch_DIGITS_RE_iff {value : Str} : fullMatch DIGITS_RE value = true ↔ IsDigits value :=
  Regex.fullMatch_plus_set_iff

/-- What a scalar is read from, by its kind. -/
theorem scalar_eq_ok {value : Str} {v : Value} (h : scalar value = .ok v) :
    value = [] ∧ v = .map [] ∨
    value = "true".toList ∧ v = .scalar (.bool true) ∨
    value = "false".toList ∧ v = .scalar (.bool false) ∨
    IsDigits value ∧ v = .scalar (.int (decimal value)) ∨
    value ≠ [] ∧ v = .scalar (.str value) := by
  rw [scalar] at h
  by_cases hnil : value = []
  · rw [if_pos hnil] at h
    exact .inl ⟨hnil, (Except.ok.inj h).symm⟩
  rw [if_neg hnil] at h
  by_cases htrue : value = "true".toList
  · rw [if_pos (.inl htrue), htrue] at h
    exact .inr (.inl ⟨htrue, (Except.ok.inj h).symm⟩)
  by_cases hfalse : value = "false".toList
  · rw [if_pos (.inr hfalse), hfalse] at h
    exact .inr (.inr (.inl ⟨hfalse, (Except.ok.inj h).symm⟩))
  rw [if_neg (not_or.mpr ⟨htrue, hfalse⟩)] at h
  by_cases hdigits : fullMatch DIGITS_RE value = true
  · rw [if_pos hdigits] at h
    exact .inr (.inr (.inr (.inl ⟨fullMatch_DIGITS_RE_iff.mp hdigits, (Except.ok.inj h).symm⟩)))
  rw [if_neg hdigits, reject, reject, guard_eq_ok_iff, guard_eq_ok_iff] at h
  exact .inr (.inr (.inr (.inr ⟨hnil, (Except.ok.inj h.2.2).symm⟩)))

/-- A written number is read back. -/
theorem scalar_toDigits (n : ℕ) : scalar (Nat.toDigits 10 n) = .ok (.scalar (.int n)) := by
  have hdigits : IsDigits (Nat.toDigits 10 n) :=
    ⟨Nat.toDigits_ne_nil, fun _ hc => Nat.isDigit_of_mem_toDigits (by decide) (by decide) hc⟩
  have hword : ∀ word : Str, word.all Char.isDigit = false → Nat.toDigits 10 n ≠ word := by
    rintro word hword rfl
    rw [List.all_eq_true.mpr hdigits.2] at hword
    exact Bool.noConfusion hword
  rw [scalar, if_neg hdigits.1, if_neg, if_pos (fullMatch_DIGITS_RE_iff.mpr hdigits),
    Python.decimal_toDigits]
  exact not_or.mpr ⟨hword _ (by decide), hword _ (by decide)⟩

end RealityCore.Workflow
