import RealityCore.Source.ScanFile

/-!
# Admitted relative paths

`checkPath` refuses a path that is too long or too deep, that is not relative, or that holds
a separator or a control character under which it could mean something else. The components
are those of `pathlib`, which collapses repeated separators and drops `.` components.
-/

namespace RealityCore.SourceScan

open Python (Str encodeUtf8)

def MAX_PATH_BYTES : ℕ := 1024

def MAX_PATH_DEPTH : ℕ := 32

/-- The anchor of a POSIX path: two leading separators, and only two, are kept apart. -/
def pathAnchor (path : Str) : List Str :=
  match path with
  | '/' :: '/' :: '/' :: _ => ["/".toList]
  | '/' :: '/' :: _ => ["//".toList]
  | '/' :: _ => ["/".toList]
  | _ => []

/-- `PurePosixPath(path).parts` -/
def pathParts (path : Str) : List Str :=
  pathAnchor path ++ (path.splitOn '/').filter fun part => part ≠ [] ∧ part ≠ ".".toList

/-- `_check_path`: the message of the `ScanError`, if any. A text has no surrogates, so that it
always has an encoding. -/
def checkPath (relativePath : Str) : Except String Unit :=
  let encodedLength := (encodeUtf8 relativePath).length
  let parts := pathParts relativePath
  if encodedLength > MAX_PATH_BYTES then .error "path exceeds the 1024-byte limit"
  else if parts.length > MAX_PATH_DEPTH then
    .error "path exceeds the 32-component depth limit"
  else if relativePath = [] ∨ relativePath.head? = some '/' ∨ relativePath.head? = some '\\' ∨
      '\x00' ∈ relativePath ∨ '\\' ∈ relativePath ∨ ':' ∈ relativePath ∨
      hasUnsafeControls relativePath then
    .error "path is absolute or contains an unsafe separator or control"
  else if parts.any fun part => part ∈ [[], ".".toList, "..".toList] then
    .error "path contains an unsafe component"
  else .ok ()

/-- The empty path is refused. -/
theorem ne_nil_of_checkPath {relativePath : Str} (h : checkPath relativePath = .ok ()) :
    relativePath ≠ [] := by
  rintro rfl
  exact absurd h (by decide)

end RealityCore.SourceScan
