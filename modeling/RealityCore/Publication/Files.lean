import RealityCore.Library.FileSystem
import RealityCore.Library.Outcome

/-!
# The files of a publication

Reading a file of the publication is bounded, and refuses symbolic links and NUL bytes.
-/

namespace RealityCore.Publication

open Python (Bytes Files Node PurePath Text points)

def MAX_FILE_BYTES : ℕ := 2 * 1024 * 1024

/-- The exceptions that leave the verification. Other errors are those for an integer with too many
digits, for a document with too many levels and for an XML encoding that is not known. -/
inductive Failure where
  | publicationError (message : Text)
  | assertionError
  | keyError
  | osError
  | otherError
  deriving DecidableEq

/-- `raise PublicationError(message)` -/
def reject {α : Type} (message : String) : Except Failure α :=
  .error (.publicationError (points message))

/-- `raise PublicationError(f"{problem}: {subject}")` -/
def rejectAt {α : Type} (problem : String) (subject : Text) : Except Failure α :=
  .error (.publicationError (points problem ++ points ": " ++ subject))

/-- `_read(path)` -/
def read (files : Files) (path : PurePath) : Except Failure Bytes :=
  match (files path).fileSize with
  | none => rejectAt "publication file is missing or is a symlink" path.toText
  | some size =>
    if MAX_FILE_BYTES < size then
      rejectAt "publication file exceeds the bounded limit" path.toText
    else
      match files path with
      | .file data =>
        if 0 ∈ data then rejectAt "publication file contains NUL bytes" path.toText else .ok data
      | _ => .error .osError

/-- A file that is read is there, is short enough and holds no NUL byte. -/
theorem read_eq_ok_iff {files : Files} {path : PurePath} {data : Bytes} :
    read files path = .ok data ↔
      files path = .file data ∧ data.length ≤ MAX_FILE_BYTES ∧ 0 ∉ data := by
  unfold read
  cases hnode : files path with
  | file content =>
    change (if MAX_FILE_BYTES < content.length then _ else _) = Except.ok data ↔ _
    rw [rejectAt, rejectAt, Outcome.guard_eq_ok_iff, Outcome.guard_eq_ok_iff, Nat.not_lt]
    constructor
    · rintro ⟨hsize, hnul, hdata⟩
      obtain rfl := Except.ok.inj hdata
      exact ⟨rfl, hsize, hnul⟩
    · rintro ⟨hdata, hsize, hnul⟩
      obtain rfl := Node.file.inj hdata
      exact ⟨hsize, hnul, rfl⟩
  | unreadable size =>
    change (if MAX_FILE_BYTES < size then _ else _) = Except.ok data ↔ _
    rw [rejectAt, Outcome.guard_eq_ok_iff]
    simp
  | _ => simp [Node.fileSize, rejectAt]

end RealityCore.Publication
