import RealityCore.Archive.Content
import RealityCore.Library.Json
import RealityCore.Source.ScanFile

/-!
# The values of a bill of materials

`_walk` goes through the values of a document in document order, up to a depth, and
`_reject_paths_and_timestamps` refuses keys for timestamps, texts that are too long, local paths
and dates. A text with a surrogate cannot be encoded, and the script does not catch that error.
-/

namespace RealityCore.Sbom

open Python (Str Bytes Text CodePoint Json encode? toStr? textAlphabet)
open Regex (Pattern search)

def MAX_DEPTH : ℕ := 16

def MAX_STRING_BYTES : ℕ := 16 * 1024

/-- What ends a validation without a result. -/
inductive Failure where
  | validationError (message : String)
  | unicodeEncodeError
  deriving DecidableEq

abbrev Result := Except Failure

def POSIX_ROOT_NAMES : List String :=
  ["home", "Users", "tmp", "var", "opt", "root", "workspace", "mnt"]

def POSIX_ABSOLUTE_RE : Pattern UInt8 := Archive.posixPath POSIX_ROOT_NAMES

/-- `(?<![A-Za-z0-9_])[A-Za-z]:[\\/]` -/
def WINDOWS_ABSOLUTE_RE : Pattern UInt8 := Archive.WINDOWS_PATH_RE

/-- `\b20[0-9]{2}-[0-9]{2}-[0-9]{2}(?:[T ][0-9]{2}:[0-9]{2}:[0-9]{2})?\b` -/
def TIMESTAMP_VALUE_RE (isAlnum : CodePoint → Bool) : Pattern CodePoint :=
  .bounded (textAlphabet isAlnum).isWord
    (.concat [(textAlphabet isAlnum).date, .optional (textAlphabet isAlnum).time])

def FORBIDDEN_KEYS : List String :=
  ["timestamp", "created", "createdat", "generatedat", "serialnumber"]

/-- `key.lower() in {..}`: a key with a surrogate is none of the texts. -/
def isForbiddenKey (key : Text) : Bool :=
  (toStr? key).any fun text => FORBIDDEN_KEYS.any fun name =>
    text.map SourceScan.lower == name.toList

/-- `raise ValidationError(message)` -/
def refuse (message : String) : Result Unit := .error (.validationError message)

mutual

/-- `_walk`, with the loop over it: each value is visited with its key, before those in it. -/
def walk (visit : Text → Json → Result Unit) : Json → Text → ℕ → Result Unit
  | .object members, key, depth =>
    if depth > MAX_DEPTH then refuse "SBOM nesting is too deep"
    else do
      visit key (.object members)
      walkMembers visit members (depth + 1)
  | .list items, key, depth =>
    if depth > MAX_DEPTH then refuse "SBOM nesting is too deep"
    else do
      visit key (.list items)
      walkItems visit items key (depth + 1)
  | value, key, depth =>
    if depth > MAX_DEPTH then refuse "SBOM nesting is too deep"
    else visit key value

/-- The loop over `value.items()`. -/
def walkMembers (visit : Text → Json → Result Unit) : List (Text × Json) → ℕ → Result Unit
  | [], _ => .ok ()
  | (key, value) :: rest, depth => do
    walk visit value key depth
    walkMembers visit rest depth

/-- The loop over the items of a list. -/
def walkItems (visit : Text → Json → Result Unit) : List Json → Text → ℕ → Result Unit
  | [], _, _ => .ok ()
  | value :: rest, key, depth => do
    walk visit value key depth
    walkItems visit rest key depth

end

/-- The checks of a text. -/
def rejectText (isAlnum : CodePoint → Bool) (value : Text) : Result Unit :=
  match encode? value with
  | none => .error .unicodeEncodeError
  | some encoded =>
    if encoded.length > MAX_STRING_BYTES then refuse "SBOM string is too large"
    else if (search POSIX_ABSOLUTE_RE encoded).isSome ||
        (search WINDOWS_ABSOLUTE_RE encoded).isSome then
      refuse "SBOM must not contain local absolute paths"
    else if (search (TIMESTAMP_VALUE_RE isAlnum) value).isSome then
      refuse "SBOM must not contain generated timestamps"
    else .ok ()

/-- One round of the loop over the values. -/
def rejectEntry (isAlnum : CodePoint → Bool) (key : Text) (value : Json) : Result Unit :=
  if isForbiddenKey key then refuse "SBOM must not contain timestamps or serial numbers"
  else
    match value with
    | .str text => rejectText isAlnum text
    | _ => .ok ()

/-- `_reject_paths_and_timestamps` -/
def rejectPathsAndTimestamps (isAlnum : CodePoint → Bool) (document : List (Text × Json)) :
    Result Unit :=
  walk (rejectEntry isAlnum) (.object document) [] 0

end RealityCore.Sbom
