import RealityCore.Source.TrackedPaths

/-!
# The paths of a directory tree

Without git the scan walks the directories below its root, with a stack of those still to be
visited. Symbolic links are listed and not followed, some directories are passed over by name,
and the walk is bounded in the number of directories, their entries, their depth and the files.
Paths below the root are lists of names. A name may hold surrogates, for octets that are not UTF-8.
-/

namespace RealityCore.SourceScan

open Python (Text points toStr?)

def MAX_DIRECTORIES : ℕ := 4096

def EXCLUDED_DIRECTORIES : List Text :=
  [points ".git", points ".gradle", points "build", points "ci-state", points "__pycache__"]

/-- What a directory entry is, when symbolic links are not followed. -/
inductive Kind where
  | symlink
  | directory
  | file
  | other
  deriving DecidableEq

/-- `_check_path`, for a path that may have no encoding. -/
def checkTextPath (relativePath : Text) : Except String Unit :=
  match toStr? relativePath with
  | none => .error "path is not valid UTF-8"
  | some path => checkPath path

/-- A directory tree: the entries that `os.scandir` lists for a path below the root, in any order,
with `none` for an `OSError`. It follows symbolic links, so it answers for them too. -/
structure Tree where
  scandir : List Text → Option (List (Text × Kind))
  names_nodup : ∀ directory entries, scandir directory = some entries →
    (entries.map Prod.fst).Nodup
  isName : ∀ directory entries, scandir directory = some entries →
    ∀ entry ∈ entries, IsName entry.1

/-- `path.relative_to(root).as_posix()` -/
def asPosix (path : List Text) : Text := [separator].intercalate path

/-- What the walk keeps: the directories to visit, with their depths, and the paths found. -/
structure Walk where
  stack : List (List Text × ℕ)
  paths : List (List Text)

/-- One round of the loop over the entries of a directory. -/
def visitEntry (directory : List Text) (depth : ℕ) (state : Walk) (entry : Text × Kind) :
    Except Failure Walk :=
  let path := directory ++ [entry.1]
  match checkTextPath (asPosix path) with
  | .error message => .error (.scanError (points message))
  | .ok () =>
    match entry.2 with
    | .symlink => .ok { state with paths := state.paths ++ [path] }
    | .directory =>
      if entry.1 ∉ EXCLUDED_DIRECTORIES then
        if depth + 1 > MAX_PATH_DEPTH then
          .error (.scanError (points "directory depth exceeded the bounded limit"))
        else .ok { state with stack := (path, depth + 1) :: state.stack }
      else .ok state
    | .file => .ok { state with paths := state.paths ++ [path] }
    | .other => .ok state

/-- The entries in the order of their names. -/
def sortEntries (entries : List (Text × Kind)) : List (Text × Kind) :=
  entries.insertionSort fun entry next => entry.1 ≤ next.1

/-- `str(directory)` -/
def directoryText (root : ResolvedPath) (directory : List Text) : Text :=
  separator :: [separator].intercalate (root.parts ++ directory)

/-- Visit a directory that has been taken from the stack. -/
def visitDirectory (root : ResolvedPath) (tree : Tree) (directory : List Text) (depth : ℕ)
    (state : Walk) : Except Failure Walk :=
  match tree.scandir directory with
  | none => .error (.scanError (points "cannot enumerate " ++ directoryText root directory))
  | some listing =>
    let entries := sortEntries listing
    if entries.length > MAX_FILES then
      .error (.scanError (points "directory entry count exceeded the bounded limit"))
    else entries.foldlM (visitEntry directory depth) state

/-- The loop over the stack, with the number of directories that may still be counted. -/
def walk (root : ResolvedPath) (tree : Tree) : ℕ → Walk → Except Failure (List (List Text))
  | _, ⟨[], paths⟩ => .ok paths
  | 0, ⟨_ :: _, _⟩ => .error (.scanError (points "directory count exceeded the bounded limit"))
  | remaining + 1, ⟨(directory, depth) :: stack, paths⟩ => do
    walk root tree remaining (← visitDirectory root tree directory depth ⟨stack, paths⟩)

/-- `_source_paths` without git. -/
def sourcePaths (root : ResolvedPath) (tree : Tree) : Except Failure (List (List Text)) := do
  let paths ← walk root tree MAX_DIRECTORIES ⟨[([], 0)], []⟩
  if paths.length > MAX_FILES then
    .error (.scanError (points "file count exceeded the bounded limit"))
  else
    .ok (paths.insertionSort fun path next => asPosix path ≤ asPosix next)

end RealityCore.SourceScan
