import RealityCore.Library.Hashing
import RealityCore.Library.JsonLoads
import RealityCore.Library.PythonRepr
import RealityCore.Library.RegexLanguage
import RealityCore.Publication.Pom

/-!
# The published module metadata

`_verify_module` reads a JSON document and checks its members from the top to the records of the
published files. It hashes the file that a record names, chunk by chunk under a limit, and compares
its size and its digests with those of the record.
-/

namespace RealityCore.Publication

open Python (Bytes CodePoint Dict Files Hasher Hook Json JsonLoads PurePath Text decodeUtf8
  isHexPoint points readChunks)
open Regex (fullMatch)

def MAX_ARTIFACT_BYTES : ℕ := 64 * 1024 * 1024

/-- The hash algorithms. -/
inductive Algorithm where
  | sha512
  | sha256
  | sha1
  | md5
  deriving DecidableEq

/-- The name of an algorithm. -/
def Algorithm.name : Algorithm → String
  | sha512 => "sha512"
  | sha256 => "sha256"
  | sha1 => "sha1"
  | md5 => "md5"

/-- The number of hexadecimal digits of a digest. -/
def Algorithm.digits : Algorithm → ℕ
  | sha512 => 128
  | sha256 => 64
  | sha1 => 40
  | md5 => 32

/-- `("sha512", "sha256", "sha1", "md5")` -/
def ALGORITHMS : List Algorithm := [.sha512, .sha256, .sha1, .md5]

/-- What the verification takes from elsewhere: the files, `json.loads`, `hashlib.new`,
`str.isprintable` beyond ASCII, and `str.lower`. -/
structure Environment where
  files : Files
  json : JsonLoads
  hashers : (algorithm : Algorithm) → Hasher algorithm.digits
  isPrintable : CodePoint → Bool
  lower : Text → Text

/-- The values of the dictionary `digests`. -/
abbrev Digests (env : Environment) := (algorithm : Algorithm) → (env.hashers algorithm).State

/-- One round of the loop over the chunks of a file. -/
def addChunk (env : Environment) (path : PurePath) (state : ℕ × Digests env)
    (chunk : Bytes) : Except Failure (ℕ × Digests env) :=
  let size := state.1 + chunk.length
  if MAX_ARTIFACT_BYTES < size then
    rejectAt "published artifact exceeds the bounded limit" path.name
  else .ok (size, fun algorithm => (env.hashers algorithm).update (state.2 algorithm) chunk)

/-- `_artifact_digests(path)` -/
def artifactDigests (env : Environment) (path : PurePath) :
    Except Failure (List (Text × Json)) :=
  match (env.files path).fileSize with
  | none => rejectAt "published artifact is missing or is a symlink" path.name
  | some size =>
    if MAX_ARTIFACT_BYTES < size then
      rejectAt "published artifact exceeds the bounded limit" path.name
    else
      match env.files path with
      | .file content => do
        let (size, digests) ← (readChunks (1024 * 1024) content).foldlM (addChunk env path)
          (0, fun algorithm => (env.hashers algorithm).new)
        if (env.files path).fileSize ≠ some size then
          rejectAt "published artifact changed while being read" path.name
        else
          .ok ((points "size", .int size) :: ALGORITHMS.map fun algorithm =>
            (points algorithm.name, .str ((env.hashers algorithm).hexdigest (digests algorithm))))
      | _ => rejectAt "published artifact could not be read" path.name

/-- `_json_object(pairs)` -/
def jsonObject : Hook Failure :=
  Json.ofDistinctPairs
    (.publicationError (points "module metadata contains duplicate JSON keys"))

/-- `_read_json(path)` -/
def readJson (env : Environment) (path : PurePath) : Except Failure (List (Text × Json)) := do
  let data ← read env.files path
  match decodeUtf8 data with
  | none => reject "module metadata is not valid UTF-8 JSON"
  | some text =>
    match env.json.loads jsonObject text with
    | .error .decodeError => reject "module metadata is not valid UTF-8 JSON"
    | .error (.hookError failure) => .error failure
    | .error .otherError => .error .otherError
    | .ok (.object members) => .ok members
    | .ok _ => reject "module metadata root must be an object"

/-- `dictionary[key]` -/
def item (dictionary : List (Text × Json)) (key : String) : Except Failure Json :=
  match Dict.get? dictionary (points key) with
  | none => .error .keyError
  | some value => .ok value

/-- `list(dictionary) == keys` -/
def hasKeys (dictionary : List (Text × Json)) (keys : List String) : Bool :=
  Dict.keys dictionary == keys.map points

/-- A member with a text. -/
def textMember (key value : String) : Text × Json := (points key, .str (points value))

/-- `["formatVersion", "component", "createdBy", "variants"]` -/
def MODULE_KEYS : List String := ["formatVersion", "component", "createdBy", "variants"]

/-- The expected component. -/
def COMPONENT : List (Text × Json) :=
  [textMember "group" EXPECTED_GROUP, textMember "module" EXPECTED_ARTIFACT,
    textMember "version" EXPECTED_VERSION,
    (points "attributes", .object [textMember "org.gradle.status" "integration"])]

/-- The check of the component. -/
def verifyComponent : Json → Except Failure Unit
  | .object component =>
    if ¬hasKeys component ["group", "module", "version", "attributes"] then
      reject "module component is not canonical"
    else if ¬(Json.object component).equal (.object COMPONENT) then
      reject "module coordinates are incorrect"
    else .ok ()
  | _ => reject "module component is not canonical"

/-- The check of the version of Gradle. -/
def verifyGradle : Json → Except Failure Unit
  | .object gradle =>
    if ¬hasKeys gradle ["version"] ∨
        ¬((Dict.get? gradle (points "version")).getD .null).equal (.str (points "8.8")) then
      reject "module was not created by Gradle 8.8"
    else .ok ()
  | _ => reject "module was not created by Gradle 8.8"

/-- The check of the creator. -/
def verifyCreator : Json → Except Failure Unit
  | .object createdBy =>
    if ¬hasKeys createdBy ["gradle"] then reject "module creator is not canonical"
    else item createdBy "gradle" >>= verifyGradle
  | _ => reject "module creator is not canonical"

/-- The attributes of the library variants, with the version of Java. -/
def libraryAttributes (version : Json) (usage : String) : List (Text × Json) :=
  [textMember "org.gradle.category" "library",
    textMember "org.gradle.dependency.bundling" "external",
    (points "org.gradle.jvm.version", version), textMember "org.gradle.libraryelements" "jar",
    textMember "org.gradle.usage" usage]

/-- The attributes of the documentation variants. -/
def documentationAttributes (docstype : String) : List (Text × Json) :=
  [textMember "org.gradle.category" "documentation",
    textMember "org.gradle.dependency.bundling" "external",
    textMember "org.gradle.docstype" docstype, textMember "org.gradle.usage" "java-runtime"]

/-- `expected_attributes` -/
def EXPECTED_ATTRIBUTES : List (List (Text × Json)) :=
  [libraryAttributes (.int 17) "java-api", libraryAttributes (.int 17) "java-runtime",
    documentationAttributes "sources", documentationAttributes "javadoc"]

/-- `expected_names` -/
def EXPECTED_NAMES : List String :=
  ["apiElements", "runtimeElements", "sourcesElements", "javadocElements"]

/-- `expected_files` -/
def EXPECTED_FILES : List String :=
  ["reality-core-0.1.0-SNAPSHOT.jar", "reality-core-0.1.0-SNAPSHOT.jar",
    "reality-core-0.1.0-SNAPSHOT-sources.jar", "reality-core-0.1.0-SNAPSHOT-javadoc.jar"]

/-- The expected name, attributes and file of a variant. -/
structure ExpectedVariant where
  name : String
  attributes : List (Text × Json)
  file : String

/-- The three tables, read at one index after the other. -/
def EXPECTED_VARIANTS : List ExpectedVariant :=
  (EXPECTED_NAMES.zip (EXPECTED_ATTRIBUTES.zip EXPECTED_FILES)).map fun (name, attributes, file) =>
    ⟨name, attributes, file⟩

/-- The keys of the record of a file. -/
def FILE_KEYS : List String := ["name", "url", "size", "sha512", "sha256", "sha1", "md5"]

/-- `type(size) is not int or size <= 0` -/
def isBadSize : Json → Bool
  | .int size => size ≤ 0
  | _ => true

/-- The check of how a digest is written. -/
def verifyDigest (file : List (Text × Json)) (algorithm : Algorithm) : Except Failure Unit := do
  let digest ← item file algorithm.name
  match digest with
  | .str text =>
    if ¬fullMatch (.times (.set isHexPoint) algorithm.digits) text then
      reject "module artifact digest is not canonical"
    else .ok ()
  | _ => reject "module artifact digest is not canonical"

/-- The check of the size and the digests of the file that a record names. -/
def verifyHashes (env : Environment) (artifactDirectory : PurePath) (file : List (Text × Json))
    (name : Text) : Except Failure Unit := do
  let artifact := artifactDirectory.join name
  if artifact.parent ≠ artifactDirectory then
    reject "module artifact path escapes the build output directory"
  else do
    let actual ← artifactDigests env artifact
    let expected ← ("size" :: ALGORITHMS.map Algorithm.name).mapM fun key => do
      let value ← item file key
      .ok (points key, value)
    if ¬(Json.object actual).equal (.object expected) then
      .error (.publicationError (points "module hashes do not match " ++ name))
    else .ok ()

/-- The checks of the record of a file. -/
def verifyFile (env : Environment) (artifactDirectory : PurePath) (expected : ExpectedVariant)
    (file : List (Text × Json)) : Except Failure Unit :=
  if ¬hasKeys file FILE_KEYS then reject "module artifact hash shape is not canonical"
  else do
    let name ← item file "name"
    let url ← item file "url"
    let size ← item file "size"
    if ¬name.equal url ∨ isBadSize size then
      reject "module artifact file metadata is not canonical"
    else if ¬name.equal (.str (points expected.file)) then
      reject "module artifact name is not canonical"
    else do
      ALGORITHMS.forM (verifyDigest file)
      -- the name is the expected text
      verifyHashes env artifactDirectory file (points expected.file)

/-- `key in variant and variant[key] != []` -/
def isPresent (variant : List (Text × Json)) (key : String) : Bool :=
  (Dict.get? variant (points key)).any fun value => !value.equal (.list [])

/-- `"junit" in str(value).lower()` -/
def mentionsJunit (env : Environment) (value : Json) : Bool :=
  decide (points "junit" <:+: env.lower (value.toText env.isPrintable))

/-- The checks of a variant with its members. -/
def verifyMembers (env : Environment) (artifactDirectory : PurePath) (expected : ExpectedVariant)
    (variant : List (Text × Json)) : Except Failure Unit :=
  if ¬hasKeys variant ["name", "attributes", "files"] then
    reject "module variant shape is not canonical"
  else do
    let name ← item variant "name"
    let attributes ← item variant "attributes"
    let files ← item variant "files"
    if ¬name.equal (.str (points expected.name)) ∨
        ¬attributes.equal (.object expected.attributes) then
      reject "module variant attributes are not canonical"
    else if isPresent variant "dependencies" then
      reject "runtime module metadata contains dependencies"
    else if isPresent variant "dependencyConstraints" then
      reject "runtime module metadata contains dependency constraints"
    else if variant.any fun member => mentionsJunit env member.2 then
      reject "test dependency entered module metadata"
    else
      match files with
      | .list [.object file] => verifyFile env artifactDirectory expected file
      | _ => reject "module variant files are not canonical"

/-- One round of the loop over the variants. -/
def verifyVariant (env : Environment) (artifactDirectory : PurePath)
    (round : Json × ExpectedVariant) : Except Failure Unit :=
  match round.1 with
  | .object variant => verifyMembers env artifactDirectory round.2 variant
  | _ => reject "module variant is not an object"

/-- The checks of the variants. -/
def verifyVariants (env : Environment) (artifactDirectory : PurePath) :
    Json → Except Failure Unit
  | .list (variant :: variants) =>
    if (variant :: variants).length ≠ EXPECTED_NAMES.length then
      reject "module variant count is not canonical"
    else ((variant :: variants).zip EXPECTED_VARIANTS).forM (verifyVariant env artifactDirectory)
  | _ => reject "module variants are missing"

/-- `_verify_module`, of the members of the document. -/
def verifyDocument (env : Environment) (artifactDirectory : PurePath)
    (document : List (Text × Json)) : Except Failure Unit :=
  let allowed := MODULE_KEYS.map points
  if ¬(Dict.keys document ⊆ allowed ∧ allowed ⊆ Dict.keys document) ∨
      ¬hasKeys document MODULE_KEYS then
    reject "module metadata top-level shape is not canonical"
  else do
    let formatVersion ← item document "formatVersion"
    if ¬formatVersion.equal (.str (points "1.1")) then
      reject "module metadata formatVersion is incorrect"
    else do
      item document "component" >>= verifyComponent
      item document "createdBy" >>= verifyCreator
      item document "variants" >>= verifyVariants env artifactDirectory

/-- `_verify_module(path, artifact_directory)` -/
def verifyModule (env : Environment) (path artifactDirectory : PurePath) : Except Failure Unit :=
  readJson env path >>= verifyDocument env artifactDirectory

end RealityCore.Publication
