import Mathlib.Data.List.Dedup
import RealityCore.Archive.CanonicalOrder
import RealityCore.Archive.Content

/-!
# Validating an archive

`_validate_archive` checks the number, the order, the names and the times of the entries of a
ZIP archive, and reads each of them under a limit for all. The entry names of an accepted
archive pass three checks of their own.
-/

namespace RealityCore.Archive

open Outcome (guard_eq_ok_iff bind_eq_ok_iff)
open Python (Str Bytes)

def MAX_ARCHIVE_ENTRIES : ℕ := 4096

def MAX_ARCHIVE_TOTAL_BYTES : ℕ := 128 * 1024 * 1024

/-- A `ZipInfo`, with what `archive.read(info)` gives. -/
structure ZipInfo where
  filename : Str
  dateTime : ℕ × ℕ × ℕ × ℕ × ℕ × ℕ
  fileSize : ℕ
  content : Result Bytes

/-- A path with what `zipfile.ZipFile(path)` reads: the entries, or `none` for `OSError` and
`BadZipFile`. -/
structure ArchivePath where
  path : Str
  infolist : Option (List ZipInfo)

/-- `name.rstrip("/").split("/")` -/
def components (name : Str) : List Str := (name.rdropWhile (· == '/')).splitOn '/'

/-- A name that may not be extracted. -/
def isUnsafeName (name : Str) : Bool :=
  name.isEmpty || name.head? == some '/' || name.head? == some '\\' || name.contains '\\' ||
    ((components name).any fun part => part == [] || part == ['.'] || part == ['.', '.']) ||
    name.contains '\x00'

/-- `(1980, 2, 1, 0, 0, 0)` -/
def FIXED_TIME : ℕ × ℕ × ℕ × ℕ × ℕ × ℕ := (1980, 2, 1, 0, 0, 0)

/-- The loop over the entries, with the size of those before. -/
def validateEntries (path : Str) : ℕ → List ZipInfo → Result Unit
  | _, [] => .ok ()
  | total, info :: infos =>
    if MAX_ARCHIVE_TOTAL_BYTES < total + info.fileSize then
      refuse "archive contents exceed the bounded limit" path
    else do
      let data ← info.content
      if data.length ≠ info.fileSize then refuse "archive entry changed while being read" path
      else do
        validateContent data info.filename true
        validateEntries path (total + info.fileSize) infos

/-- `_validate_archive(path)` -/
def validateArchive (archive : ArchivePath) : Result Unit :=
  match archive.infolist with
  | none => refuse "invalid reproducible archive" archive.path
  | some infos =>
    let names := infos.map ZipInfo.filename
    let timestamps := (infos.map ZipInfo.dateTime).dedup
    if infos = [] ∨ MAX_ARCHIVE_ENTRIES < infos.length then
      refuse "archive entry count is outside the bounded range" archive.path
    else if names ≠ canonicalZipOrder names ∨ names.length ≠ names.dedup.length then
      refuse "archive entries are not unique and canonical" archive.path
    else if names.any isUnsafeName then
      refuse "archive contains an unsafe entry name" archive.path
    else if timestamps.length ≠ 1 ∨ timestamps.head? ≠ some FIXED_TIME then
      refuse "archive entry timestamps are not the fixed Gradle value" archive.path
    else validateEntries archive.path 0 infos

/-- Entry names that pass the checks for the order, for duplicates and for unsafe names. -/
structure NamesPass (names : List Str) : Prop where
  canonical : names = canonicalZipOrder names
  unique : names.length = names.dedup.length
  safe : ∀ name ∈ names, isUnsafeName name = false

/-- An archive is accepted exactly when its entries are few, pass the checks of their names, have
the fixed time and pass the checks of their contents. -/
theorem validateArchive_eq_ok_iff {archive : ArchivePath} {infos : List ZipInfo}
    (hinfos : archive.infolist = some infos) :
    validateArchive archive = .ok () ↔
      (infos ≠ [] ∧ infos.length ≤ MAX_ARCHIVE_ENTRIES) ∧
        NamesPass (infos.map ZipInfo.filename) ∧
        ((infos.map ZipInfo.dateTime).dedup.length = 1 ∧
          (infos.map ZipInfo.dateTime).dedup.head? = some FIXED_TIME) ∧
        validateEntries archive.path 0 infos = .ok () := by
  have hnames : ∀ names : List Str, NamesPass names ↔
      (names = canonicalZipOrder names ∧ names.length = names.dedup.length) ∧
        names.any isUnsafeName = false := by
    intro names
    simp only [List.any_eq_false, Bool.not_eq_true]
    exact ⟨fun h => ⟨⟨h.canonical, h.unique⟩, h.safe⟩, fun h => ⟨h.1.1, h.1.2, h.2⟩⟩
  simp only [validateArchive, hinfos, refuse, guard_eq_ok_iff, hnames, not_or, not_not, not_lt,
    Bool.not_eq_true, ne_eq]
  tauto

/-- Entries without content, of the fixed time. -/
def emptyEntries (names : List Str) : List ZipInfo :=
  names.map fun name => ⟨name, FIXED_TIME, 0, .ok []⟩

/-- An archive of entries without content is accepted when there are a few and their names pass. -/
theorem validateArchive_emptyEntries {names : List Str} (hne : names ≠ [])
    (hcount : names.length ≤ MAX_ARCHIVE_ENTRIES) (h : NamesPass names) (path : Str) :
    validateArchive ⟨path, some (emptyEntries names)⟩ = .ok () := by
  have hnames : (emptyEntries names).map ZipInfo.filename = names := by
    simp [emptyEntries, Function.comp_def]
  have htimes : (emptyEntries names).map ZipInfo.dateTime =
      List.replicate names.length FIXED_TIME := by
    simp [emptyEntries, Function.comp_def]
  have hread : ∀ name : Str, validateContent [] name true = .ok () := fun name =>
    validateContent_eq_ok_iff.mpr ⟨by decide, by rw [← search_TIMESTAMP_RE_isSome_iff]; decide⟩
  have hentries : ∀ names, validateEntries path 0 (emptyEntries names) = .ok () := by
    intro names
    induction names with
    | nil => rfl
    | cons name names ih =>
      refine guard_eq_ok_iff.mpr ⟨Nat.not_lt_zero _, bind_eq_ok_iff.mpr ⟨[], rfl, ?_⟩⟩
      exact guard_eq_ok_iff.mpr ⟨by simp, bind_eq_ok_iff.mpr ⟨(), hread name, ih⟩⟩
  refine (validateArchive_eq_ok_iff rfl).mpr ⟨⟨?_, ?_⟩, hnames.symm ▸ h, ?_, hentries names⟩
  · simpa [emptyEntries] using hne
  · simpa [emptyEntries] using hcount
  · rw [htimes, List.replicate_dedup (List.length_eq_zero_iff.not.mpr hne)]
    exact ⟨rfl, rfl⟩

end RealityCore.Archive
