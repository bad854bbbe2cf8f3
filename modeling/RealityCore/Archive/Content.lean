import RealityCore.Library.DateTime
import RealityCore.Library.Outcome
import RealityCore.Library.PythonBytes
import RealityCore.Source.Patterns

/-!
# The content of a published artifact

`_validate_content` searches the octets of an artifact for control bytes, local paths, private
keys and build timestamps. The patterns are over bytes, so a word character is an ASCII one.
-/

namespace RealityCore.Archive

open Outcome (guard_eq_ok_iff)
open Python (Str Bytes)
open Regex (Cursor Pattern mem_reach_assert mem_reach_seq mem_reach_set mem_reach_text search
  search_isSome_eq_false)

/-- Why an artifact is refused: the error of the script itself, or another one that no function
below `main` catches. -/
inductive Failure where
  | artifactError (message : Str)
  | uncaught (message : Str)
  deriving DecidableEq

abbrev Result := Except Failure

/-- The character with the same code as a byte. -/
def charOfByte (b : UInt8) : Char := Char.ofNat b.toNat

/-- A byte literal of ASCII characters. -/
def bytes (text : String) : Bytes := text.toList.map Char.toUInt8

/-- `[A-Za-z0-9_]` -/
def isWordByte (b : UInt8) : Bool := SourceScan.isAsciiWord (charOfByte b)

/-- Bytes as an alphabet for dates and times. -/
def byteAlphabet : DateTime.Alphabet UInt8 where
  is c b := charOfByte b == c
  digit b := (charOfByte b).isDigit
  isWord := isWordByte
  isWord_two b h := by
    rw [isWordByte, eq_of_beq h]
    rfl
  isWord_digit b h := by
    simp [isWordByte, SourceScan.isAsciiWord, Char.isAlphanum, h]
  not_isWord mark hmark b h := by
    have hmarks : ∀ c ∈ ['.', ',', '+', '-'], SourceScan.isAsciiWord c = false :=
      Python.forall_mem_of_all (by decide)
    rw [isWordByte, eq_of_beq h, hmarks mark hmark]

/-- `\b20[0-9]{2}-[0-9]{2}-[0-9]{2}[T ][0-9]{2}:[0-9]{2}:[0-9]{2}\b` -/
def TIMESTAMP_RE : Pattern UInt8 :=
  .bounded isWordByte (.concat [byteAlphabet.date, byteAlphabet.time])

def POSIX_NAMES : List String :=
  ["bin", "boot", "dev", "etc", "home", "lib", "lib32", "lib64", "media", "mnt", "opt", "proc",
    "root", "run", "sbin", "srv", "sys", "tmp", "usr", "var", "Users", "workspace"]

/-- `(?<![A-Za-z0-9_])/(?:..)(?:/|$)` with the names. -/
def posixPath (names : List String) : Pattern UInt8 :=
  .concat [.notBehind isWordByte, .text (bytes "/"),
    .choice (names.map fun name => .text (bytes name)),
    .alt (.text (bytes "/")) (.dollar 10)]

def POSIX_PATH_RE : Pattern UInt8 := posixPath POSIX_NAMES

/-- `(?<![A-Za-z0-9_])[A-Za-z]:[\\/]` -/
def WINDOWS_PATH_RE : Pattern UInt8 :=
  .concat [.notBehind isWordByte, .set fun b => (charOfByte b).isAlpha, .text (bytes ":"),
    .set fun b => SourceScan.isSlash (charOfByte b)]

/-- `-----BEGIN (?:[A-Z0-9]+ )*PRIVATE KEY-----` -/
def PRIVATE_KEY_RE : Pattern UInt8 :=
  .concat [.text (bytes "-----BEGIN "),
    .star (.seq (.plus (.set fun b => (charOfByte b).isUpper || (charOfByte b).isDigit))
      (.text (bytes " "))),
    .text (bytes "PRIVATE KEY-----")]

/-- `[\x00-\x08\x0b\x0c\x0e-\x1f\x7f]` -/
def CONTROL_BYTE_RE : Pattern UInt8 :=
  .set fun b => b ≤ 8 || b == 0x0b || b == 0x0c || (0x0e ≤ b && b ≤ 0x1f) || b == 0x7f

/-- `raise ArtifactError(f"{problem}: {subject}")` -/
def refuse (problem : String) (subject : Str) : Result Unit :=
  .error (.artifactError ((problem ++ ": ").toList ++ subject))

/-- `_validate_content(data, label, allow_binary=...)` -/
def validateContent (data : Bytes) (label : Str) (allowBinary : Bool) : Result Unit :=
  if (search CONTROL_BYTE_RE data).isSome && !allowBinary then
    refuse "control byte in text publication metadata" label
  else if (search POSIX_PATH_RE data).isSome || (search WINDOWS_PATH_RE data).isSome then
    refuse "absolute local path in artifact" label
  else if (search PRIVATE_KEY_RE data).isSome then
    refuse "private-key marker in artifact" label
  else if (search TIMESTAMP_RE data).isSome then
    refuse "build timestamp in artifact" label
  else .ok ()

/-- Another check than that for timestamps refuses the octets. -/
def otherwiseRefused (data : Bytes) (allowBinary : Bool) : Bool :=
  (search CONTROL_BYTE_RE data).isSome && !allowBinary ||
    ((search POSIX_PATH_RE data).isSome || (search WINDOWS_PATH_RE data).isSome) ||
    (search PRIVATE_KEY_RE data).isSome

/-- The pattern for timestamps finds the date-times whose seconds the letter of universal time does
not follow. -/
theorem search_TIMESTAMP_RE_isSome_iff {data : Bytes} :
    (search TIMESTAMP_RE data).isSome = true ↔ byteAlphabet.HasOpenDateTime data :=
  byteAlphabet.search_stamp_isSome_iff

/-- Octets are accepted exactly when no other check refuses them and each of their date-times is
in universal time. -/
theorem validateContent_eq_ok_iff {data : Bytes} {label : Str} {allowBinary : Bool} :
    validateContent data label allowBinary = .ok () ↔
      otherwiseRefused data allowBinary = false ∧ ¬byteAlphabet.HasOpenDateTime data := by
  simp only [validateContent, refuse, guard_eq_ok_iff, ← search_TIMESTAMP_RE_isSome_iff,
    otherwiseRefused, Bool.or_eq_false_iff, Bool.not_eq_true, Bool.or_eq_true, not_or, and_true]
  tauto

/-- A line break or a printing character, but no slash and not the letter `G`: local paths need the
first, private keys the second. -/
def isHarmless (b : UInt8) : Bool :=
  (b == 0x0a || (0x20 ≤ b && b ≤ 0x7e)) && !SourceScan.isSlash (charOfByte b) && b != 0x47

/-- A path from the root holds a slash. -/
theorem exists_slash_of_mem_posixPath {s e : Cursor UInt8} (h : e ∈ POSIX_PATH_RE.reach s) :
    ∃ b ∈ s.after, SourceScan.isSlash (charOfByte b) = true := by
  obtain ⟨m, hm, hpath⟩ := mem_reach_seq.mp h
  obtain ⟨-, rfl⟩ := mem_reach_assert.mp hm
  obtain ⟨n, hn, -⟩ := mem_reach_seq.mp hpath
  rw [(mem_reach_text.mp hn).1]
  exact ⟨0x2f, .head _, rfl⟩

/-- A path from a drive holds a slash. -/
theorem exists_slash_of_mem_windowsPath {s e : Cursor UInt8} (h : e ∈ WINDOWS_PATH_RE.reach s) :
    ∃ b ∈ s.after, SourceScan.isSlash (charOfByte b) = true := by
  obtain ⟨m, hm, hdrive⟩ := mem_reach_seq.mp h
  obtain ⟨-, rfl⟩ := mem_reach_assert.mp hm
  obtain ⟨m, hletter, hcolon⟩ := mem_reach_seq.mp hdrive
  obtain ⟨letter, rest, hafter, -, rfl⟩ := mem_reach_set.mp hletter
  obtain ⟨n, hn, hend⟩ := mem_reach_seq.mp hcolon
  obtain ⟨stop, hstop, -⟩ := mem_reach_seq.mp hend
  obtain ⟨b, _, hslash, hb, -⟩ := mem_reach_set.mp hstop
  have hrest : rest = bytes ":" ++ n.after := (mem_reach_text.mp hn).1
  rw [hafter, hrest, hslash]
  exact ⟨b, .tail _ (List.mem_append_right _ (.head _)), hb⟩

/-- Harmless octets are refused for timestamps only. -/
theorem otherwiseRefused_eq_false {data : Bytes} (h : ∀ b ∈ data, isHarmless b = true)
    (allowBinary : Bool) : otherwiseRefused data allowBinary = false := by
  simp only [isHarmless, Bool.and_eq_true, Bool.or_eq_true, beq_iff_eq, decide_eq_true_eq,
    Bool.not_eq_true', bne_iff_ne, ← Bool.not_eq_true (SourceScan.isSlash _)] at h
  have hslash : ∀ b ∈ data, ¬SourceScan.isSlash (charOfByte b) = true := fun b hb => (h b hb).1.2
  have hcontrol : (search CONTROL_BYTE_RE data).isSome = false := by
    refine search_isSome_eq_false (fun s e he => ?_) fun b hb => not_not.mpr (h b hb).1.1
    obtain ⟨b, rest, hafter, hcontrol, -⟩ := mem_reach_set.mp he
    refine ⟨b, by rw [hafter]; exact .head _, ?_⟩
    simp only [Bool.or_eq_true, Bool.and_eq_true, decide_eq_true_eq, beq_iff_eq,
      UInt8.le_iff_toNat_le, ← UInt8.toNat_inj, UInt8.reduceToNat] at hcontrol ⊢
    omega
  have hkey : (search PRIVATE_KEY_RE data).isSome = false := by
    refine search_isSome_eq_false (fun s e he => ?_) fun b hb => not_not.mpr (h b hb).2
    obtain ⟨m, hm, -⟩ := mem_reach_seq.mp he
    rw [(mem_reach_text.mp hm).1]
    exact ⟨0x47, List.mem_append_left _ (by decide), by decide⟩
  rw [otherwiseRefused, hcontrol, hkey,
    search_isSome_eq_false (fun _ _ => exists_slash_of_mem_posixPath) hslash,
    search_isSome_eq_false (fun _ _ => exists_slash_of_mem_windowsPath) hslash]
  rfl

/-- Octets that are not accepted are refused by the script itself. -/
theorem validateContent_cases (data : Bytes) (label : Str) (allowBinary : Bool) :
    validateContent data label allowBinary = .ok () ∨
      ∃ message, validateContent data label allowBinary = .error (.artifactError message) := by
  unfold validateContent
  split
  · exact .inr ⟨_, rfl⟩
  split
  · exact .inr ⟨_, rfl⟩
  split
  · exact .inr ⟨_, rfl⟩
  split
  · exact .inr ⟨_, rfl⟩
  · exact .inl rfl

/-- Octets are refused exactly when another check refuses them or they have a date-time that is
not in universal time. -/
theorem validateContent_refuses_iff {data : Bytes} {label : Str} {allowBinary : Bool} :
    (∃ message, validateContent data label allowBinary = .error (.artifactError message)) ↔
      otherwiseRefused data allowBinary = true ∨ byteAlphabet.HasOpenDateTime data := by
  have hok : validateContent data label allowBinary = .ok () ↔ _ := validateContent_eq_ok_iff
  rcases validateContent_cases data label allowBinary with h | ⟨message, h⟩
  · obtain ⟨hother, hopen⟩ := hok.mp h
    simp [h, hother, hopen]
  · refine ⟨fun _ => ?_, fun _ => ⟨message, h⟩⟩
    by_contra hnone
    obtain ⟨hother, hopen⟩ := not_or.mp hnone
    exact absurd (h.symm.trans (hok.mpr ⟨Bool.eq_false_of_not_eq_true hother, hopen⟩)) nofun

end RealityCore.Archive
