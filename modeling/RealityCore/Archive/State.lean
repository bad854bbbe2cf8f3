import RealityCore.Archive.StagedFile
import RealityCore.Archive.ValidateArchive
import RealityCore.Library.DictConversion
import RealityCore.Library.FileSystem
import RealityCore.Library.Hashing
import RealityCore.Library.JsonLoads
import RealityCore.Library.RegexLanguage

/-!
# The state of the reproducibility check

The hashes of the artifacts of one build are written as a JSON document, which is read back and
compared after the next build. The shape of the document is checked against one that is made of the
document itself, with its artifacts converted to a dictionary.
-/

namespace RealityCore.Archive

open Python (Bytes Dict Files Hasher Hook Json JsonLoads LoadsError PurePath Str Text decodeUtf8
  encodeUtf8 isHexPoint points)
open Regex (fullMatch)

def MAX_STATE_BYTES : ℕ := 64 * 1024

def MAX_ARTIFACT_BYTES : ℕ := 64 * 1024 * 1024

def ARTIFACTS : List String :=
  ["build/libs/reality-core-0.1.0-SNAPSHOT.jar",
    "build/libs/reality-core-0.1.0-SNAPSHOT-sources.jar",
    "build/libs/reality-core-0.1.0-SNAPSHOT-javadoc.jar",
    "staging/reality-core.pom",
    "staging/reality-core.module"]

/-- `raise ArtifactError(message)` -/
def refuseAll {α : Type} (message : String) : Result α := .error (.artifactError message.toList)

/-! ## Writing -/

/-- What a build has left: its files, the names in its directories, the entries of its archives; and
`hashlib.sha256`. -/
structure Build where
  files : Files
  listing : PurePath → List Text
  infolist : PurePath → Option (List ZipInfo)
  sha256 : Hasher 64

/-- A path in a message, which no surrogate can be written in. -/
def describe (path : PurePath) : Str :=
  path.toText.map fun p => p.toChar?.getD (Char.ofNat 0xfffd)

/-- `_bounded_bytes(path)` -/
def boundedBytes (build : Build) (path : PurePath) : Result Bytes :=
  match (build.files path).fileSize with
  | none => .error (.uncaught "OSError".toList)
  | some size =>
    if MAX_ARTIFACT_BYTES < size then
      .error (.artifactError
        ("artifact is larger than the bounded limit: ".toList ++ describe path))
    else
      match build.files path with
      | .file data =>
        if data.length ≠ size then
          .error (.artifactError ("artifact changed while being read: ".toList ++ describe path))
        else .ok data
      | _ => .error (.uncaught "OSError".toList)

/-- `_hash(path)` -/
def hashFile (build : Build) (path : PurePath) : Result Text :=
  (boundedBytes build path).map build.sha256.hash

/-- The path of an artifact. -/
def artifactPath (build : Build) (root : PurePath) (relative : String) : Result PurePath :=
  if relative = "staging/reality-core.pom" then stagedFile build.listing root .pom
  else if relative = "staging/reality-core.module" then stagedFile build.listing root .module
  else .ok (root.join (points relative))

/-- The check of an artifact with its octets. -/
def validateArtifact (build : Build) (relative : String) (path : PurePath) (data : Bytes) :
    Result Unit :=
  if ".jar".toList.isSuffixOf relative.toList then
    validateArchive ⟨describe path, build.infolist path⟩
  else validateContent data relative.toList false

/-- One round of the loop over the artifacts. -/
def addArtifact (build : Build) (root : PurePath) (values : List (Text × Json))
    (relative : String) : Result (List (Text × Json)) := do
  let path ← artifactPath build root relative
  if (build.files path).fileSize = none then
    .error (.artifactError
      ("required artifact is missing or is a symlink: " ++ relative).toList)
  else do
    let data ← boundedBytes build path
    validateArtifact build relative path data
    let hash ← hashFile build path
    .ok (Dict.set values (points relative) (.str hash))

/-- A state with its version and its artifacts. -/
def stateMembers (version artifacts : Json) : List (Text × Json) :=
  [(points "schemaVersion", version), (points "artifacts", artifacts)]

/-- `collect_artifact_hashes(root)` -/
def collectArtifactHashes (build : Build) (root : PurePath) : Result Json :=
  (ARTIFACTS.foldlM (addArtifact build root) []).map fun values =>
    .object (stateMembers (.int 1) (.object values))

/-- `json.dumps(current, indent=2) + "\n"` -/
def stateText (current : Json) : Str := current.dumpsIndent 2 0 ++ ['\n']

/-- What `--write` stores. -/
def writtenState (current : Json) : Bytes := encodeUtf8 (stateText current)

/-! ## Reading -/

/-- `no_duplicates(pairs)` -/
def noDuplicates : Hook Failure :=
  Json.ofDistinctPairs
    (.artifactError "reproducibility state contains duplicate keys".toList)

/-- `json.loads(data.decode("utf-8"), object_pairs_hook=no_duplicates)`, where octets that are not a
text and a text that is not a document are refused alike. -/
def load (json : JsonLoads) (data : Bytes) : Except (LoadsError Failure) Json :=
  match decodeUtf8 data with
  | none => .error .decodeError
  | some text => json.loads noDuplicates text

/-- `value == {"schemaVersion": 1, "artifacts": artifacts}` -/
def equalsState (value : List (Text × Json)) (artifacts : List (Json × Json)) : Bool :=
  value.length == 2 &&
    ((Dict.get? value (points "schemaVersion")).any fun version => version.same (.int 1)) &&
    ((Dict.get? value (points "artifacts")).any fun held => held.sameDict artifacts)

/-- `isinstance(item, str) and re.fullmatch(r"[0-9a-f]{64}", item)` -/
def isSha256 : Json → Bool
  | .str text => fullMatch (.times (.set isHexPoint) 64) text
  | _ => false

/-- The checks of a dictionary with its artifacts, which are a dictionary then. -/
def checkArtifacts (value : List (Text × Json)) : Json → Result Json
  | .object artifacts =>
    if Dict.keys value ≠ ["schemaVersion", "artifacts"].map points ∨
        Dict.keys artifacts ≠ ARTIFACTS.map points then
      refuseAll "reproducibility state is not canonical"
    else if artifacts.any fun item => ¬isSha256 item.2 then
      refuseAll "reproducibility state contains an invalid SHA-256"
    else .ok (.object value)
  | _ => .error (.uncaught "AttributeError".toList)

/-- The checks of a document. -/
def checkState : Json → Result Json
  | .object value =>
    let artifacts := (Dict.get? value (points "artifacts")).getD (.object [])
    match artifacts.dictOf with
    | .error .typeError => .error (.uncaught "TypeError".toList)
    | .error .valueError => .error (.uncaught "ValueError".toList)
    | .ok dictionary =>
      if ¬equalsState value dictionary then
        refuseAll "reproducibility state has an unexpected shape"
      else checkArtifacts value artifacts
  | _ => refuseAll "reproducibility state has an unexpected shape"

/-- The rest of `_read_state`, with the stored octets. -/
def parseState (json : JsonLoads) (data : Bytes) : Result Json :=
  match load json data with
  | .error .decodeError => refuseAll "reproducibility state is not valid UTF-8 JSON"
  | .error (.hookError failure) => .error failure
  | .error .otherError => .error (.uncaught "ValueError or RecursionError".toList)
  | .ok value => checkState value

/-- `_read_state(path)` -/
def readState (json : JsonLoads) (files : Files) (path : PurePath) : Result Json :=
  match files path with
  | .missing | .directory | .symlink =>
    refuseAll "reproducibility state is missing or is a symlink"
  | .unreadable _ => .error (.uncaught "OSError".toList)
  | .file data =>
    if MAX_STATE_BYTES < data.length ∨ 0 ∈ data then
      refuseAll "reproducibility state is too large or contains NUL"
    else parseState json data

end RealityCore.Archive
