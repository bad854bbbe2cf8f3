import RealityCore.Library.CodePoint
import RealityCore.Library.Outcome
import RealityCore.Source.CheckPath

/-!
# The tracked paths below a scan root

`trackedRelativePaths` asks git for the top level of the worktree and for its tracked paths,
and removes the prefix of the scan root from each. Git and the resolution of paths are
answers of an environment; the scan decides what to make of them. A name in the file system may hold
surrogates, for octets that are not UTF-8; what git prints has none once it is decoded.
-/

namespace RealityCore.SourceScan

open Python (Str Bytes Text CodePoint points ofStr decodeUtf8 sorted strip)

def MAX_FILES : ℕ := 4096

def MAX_GIT_OUTPUT_BYTES : ℕ := 4 * 1024 * 1024

def MAX_SUBPROCESS_OUTPUT_BYTES : ℕ := 128 * 1024

/-- What ends an enumeration without a list of paths. -/
inductive Failure where
  | scanError (message : Text)
  | osError
  deriving DecidableEq

/-- What separates the names of a path. -/
def separator : CodePoint := CodePoint.ofChar '/'

/-- A name that a directory entry can have. -/
def IsName (name : Text) : Prop :=
  name ≠ [] ∧ separator ∉ name ∧ name ≠ points "." ∧ name ≠ points ".."

instance decidableIsName : DecidablePred IsName := fun _ => inferInstanceAs (Decidable (_ ∧ _))

/-- A resolved absolute path: its components below the root of the file system. -/
structure ResolvedPath where
  parts : List Text
  resolved : ∀ part ∈ parts, IsName part

/-- A finished child process. -/
structure Process where
  output : Bytes
  stderr : Bytes
  returnCode : ℤ

/-- The world outside the scan. `resolve` is strict, and `run` is `none` for a process that
cannot be started or waited for. -/
structure Environment where
  resolve : Text → Option ResolvedPath
  run : List Text → ResolvedPath → Option Process

/-- `_run_git` -/
def runGit (env : Environment) (command : List Text) (cwd : ResolvedPath) :
    Except Failure Bytes :=
  match env.run command cwd with
  | none => .error (.scanError (points "git path enumeration failed"))
  | some process =>
    if process.output.length > MAX_GIT_OUTPUT_BYTES then
      .error (.scanError (points "git tracked path output exceeded the bounded limit"))
    else if process.stderr.length > MAX_SUBPROCESS_OUTPUT_BYTES ∨ process.returnCode ≠ 0 then
      .error (.scanError (points "git path enumeration failed"))
    else .ok process.output

/-- `root.relative_to(top).as_posix()`, with `none` for a root outside. -/
def relativeTo (root top : ResolvedPath) : Option Text :=
  if top.parts <+: root.parts then
    match root.parts.drop top.parts.length with
    | [] => some (points ".")
    | part :: rest => some ([separator].intercalate (part :: rest))
  else none

/-- One round of the loop: the path below the prefix, or the message of the `ScanError`. -/
def relativePath (pre : Text) (rawPath : Bytes) : Except String Str :=
  match decodeUtf8 rawPath with
  | none => .error "git tracked path is not UTF-8"
  | some repositoryPath =>
    let relative := if pre ≠ [] then repositoryPath.drop (pre.length + 1) else repositoryPath
    if pre ≠ [] ∧ (¬pre ++ [separator] <+: ofStr repositoryPath ∨ relative = []) then
      .error "git returned a path outside the scan root"
    else
      match checkPath relative with
      | .error message => .error message
      | .ok () => .ok relative

def SHOW_TOPLEVEL : List Text := [points "git", points "rev-parse", points "--show-toplevel"]

/-- The listing command with the paths to list, in NUL-terminated form. -/
def listFiles (pathspec : Text) : List Text :=
  [points "git", points "ls-files", points "-z", points "--", pathspec]

/-- The loop over a listing, with the check of the count after it. -/
def collectPaths (pre : Text) (output : Bytes) : Except Failure (List Str) :=
  match ((output.splitOn 0).filter (· ≠ [])).mapM (relativePath pre) with
  | .error message => .error (.scanError (points message))
  | .ok paths =>
    if paths = [] ∨ paths.length > MAX_FILES then
      .error (.scanError (points "tracked file count is outside the bounded range"))
    else .ok (sorted paths)

/-- `_tracked_relative_paths` -/
def trackedRelativePaths (env : Environment) (root : Text) : Except Failure (List Str) := do
  let root ← match env.resolve root with
    | some path => .ok path
    | none => .error .osError
  let topOutput ← runGit env SHOW_TOPLEVEL root
  let topText ← match decodeUtf8 topOutput with
    | some text => .ok text
    | none => .error (.scanError (points "git repository root was not UTF-8"))
  let repositoryRoot ← match env.resolve (ofStr (strip topText)) with
    | some path => .ok path
    | none => .error .osError
  let pre ← match relativeTo root repositoryRoot with
    | some text => .ok text
    | none => .error (.scanError (points "scan root is outside the git worktree"))
  let output ← runGit env (listFiles (if pre ≠ [] then pre else points ".")) repositoryRoot
  collectPaths pre output

end RealityCore.SourceScan
