import RealityCore.Library.FileSystem
import RealityCore.Library.JsonLoads
import RealityCore.Toolchain.Download

/-!
# The toolchain manifest

The manifest is read under a limit, its octets have a pinned digest, and its document has the
reviewed keys in their order and is equal to the reviewed one. Equality leaves open only which kind
of number stands for each of the three numbers.
-/

namespace RealityCore.Toolchain

open Outcome (bind_eq_ok_iff guard_eq_ok_iff)
open Python (Bytes Dict Files Hasher Hook Json JsonLoads LoadsError Number PurePath Text decodeUtf8
  points)

def MAX_MANIFEST_BYTES : ℕ := 32 * 1024

def EXPECTED_JAVA_VERSION : String := "17.0.20"
def EXPECTED_JAVA_RUNTIME_VERSION : String := "17.0.20+8"
def EXPECTED_JAVA_VENDOR : String := "Eclipse Adoptium"

def EXPECTED_MANIFEST_SHA256 : String :=
  "3252f9e2d49f96463a1a9ae81f042e964f24bafe12cf61916932f021273ad503"

def EXPECTED_ARCHIVE_URL : String :=
  "https://github.com/adoptium/temurin17-binaries/releases/download/" ++
    "jdk-17.0.20%2B8/OpenJDK17U-jdk_x64_linux_hotspot_17.0.20_8.tar.gz"

/-- The exceptions of the script. Other errors are those for an integer with too many digits and
for a document with too many levels. -/
inductive Failure where
  | verificationError (message : Text)
  | osError
  | otherError
  deriving DecidableEq

abbrev Result (α : Type) := Except Failure α

/-- `raise VerificationError(message)` -/
def reject {α : Type} (message : String) : Result α := .error (.verificationError (points message))

/-- `_read_bounded(path, limit)` -/
def readBounded (files : Files) (path : PurePath) (limit : ℕ) : Result Bytes :=
  match (files path).fileSize with
  | none =>
    .error (.verificationError (points "input is missing or is a symlink: " ++ path.toText))
  | some size =>
    if limit < size then reject s!"input is larger than the {limit}-byte limit"
    else
      match files path with
      | .file data => .ok data
      | _ => .error (.verificationError (points "cannot read " ++ path.toText))

/-- `_object_without_duplicate_keys(pairs)` -/
def objectWithoutDuplicateKeys : Hook Failure :=
  Json.ofDistinctPairs (.verificationError (points "JSON contains duplicate object keys"))

/-- `json.loads(data.decode("utf-8"), object_pairs_hook=_object_without_duplicate_keys)`, where
octets that are not a text and a text that is not a document are refused alike. -/
def loadManifest (json : JsonLoads) (data : Bytes) : Except (LoadsError Failure) Json :=
  match decodeUtf8 data with
  | none => .error .decodeError
  | some text => json.loads objectWithoutDuplicateKeys text

/-- `value.get(key)`, of a dictionary -/
def member? (key : String) : Json → Option Json
  | .object members => Dict.get? members (points key)
  | _ => none

/-- `isinstance(value, dict) and list(value) == keys` -/
def isObjectWith (keys : List String) : Option Json → Bool
  | some (.object members) => Dict.keys members == keys.map points
  | _ => false

def TOP_LEVEL_KEYS : List String := ["schemaVersion", "java", "gradle"]

def JAVA_KEYS : List String :=
  ["distribution", "vendor", "version", "release", "classMajor", "archive"]

def ARCHIVE_KEYS : List String := ["url", "sha256"]

/-- The archive of the reviewed document. -/
def archiveMembers : List (Text × Json) :=
  [(points "url", .str (points EXPECTED_ARCHIVE_URL)),
    (points "sha256", .str (points EXPECTED_ARCHIVE_SHA256))]

/-- The Java section, with a release, a version of the class files and an archive. -/
def javaMembers (release classMajor archive : Json) : List (Text × Json) :=
  [(points "distribution", .str (points "temurin")),
    (points "vendor", .str (points EXPECTED_JAVA_VENDOR)),
    (points "version", .str (points EXPECTED_JAVA_RUNTIME_VERSION)),
    (points "release", release), (points "classMajor", classMajor), (points "archive", archive)]

/-- The Gradle section. -/
def gradleMembers : List (Text × Json) := [(points "version", .str (points "8.8"))]

/-- A document with its version and two sections. -/
def manifestMembers (schemaVersion java gradle : Json) : List (Text × Json) :=
  [(points "schemaVersion", schemaVersion), (points "java", java), (points "gradle", gradle)]

/-- The reviewed document, with its three numbers. -/
def manifestWith (schemaVersion release classMajor : Json) : Json :=
  .object (manifestMembers schemaVersion
    (.object (javaMembers release classMajor (.object archiveMembers))) (.object gradleMembers))

/-- `expected` -/
def expectedManifest : Json := manifestWith (.int 1) (.int 17) (.int 61)

/-- The checks of a document. -/
def checkManifest (document : Json) : Result Json :=
  match document with
  | .object _ =>
    if ¬isObjectWith TOP_LEVEL_KEYS (some document) then
      reject "manifest top-level keys are not canonical"
    else if ¬isObjectWith JAVA_KEYS (member? "java" document) then
      reject "manifest Java keys are not canonical"
    else if ¬isObjectWith ARCHIVE_KEYS ((member? "java" document).bind (member? "archive")) then
      reject "manifest archive keys are not canonical"
    else if ¬isObjectWith ["version"] (member? "gradle" document) then
      reject "manifest Gradle keys are not canonical"
    else if ¬document.equal expectedManifest then
      reject "toolchain manifest differs from the reviewed exact values"
    else .ok document
  | _ => reject "manifest root must be an object"

/-- The checks of the octets. -/
def parseManifest (json : JsonLoads) (sha256 : Hasher 64) (data : Bytes) : Result Json :=
  if sha256.hash data ≠ points EXPECTED_MANIFEST_SHA256 then
    reject "toolchain manifest bytes do not match the reviewed digest"
  else if [0xef, 0xbb, 0xbf] <+: data ∨ 0 ∈ data then
    reject "manifest must be UTF-8 without BOM or NUL bytes"
  else
    match loadManifest json data with
    | .error .decodeError => reject "manifest is not valid UTF-8 JSON"
    | .error (.hookError failure) => .error failure
    | .error .otherError => .error .otherError
    | .ok document => checkManifest document

/-- `_read_manifest(path)` -/
def readManifest (json : JsonLoads) (sha256 : Hasher 64) (files : Files) (path : PurePath) :
    Result Json := do
  let data ← readBounded files path MAX_MANIFEST_BYTES
  parseManifest json sha256 data

/-! ## What is accepted -/

/-- A file that is read is there and short enough. -/
theorem readBounded_eq_ok_iff {files : Files} {path : PurePath} {limit : ℕ} {data : Bytes} :
    readBounded files path limit = .ok data ↔ files path = .file data ∧ data.length ≤ limit := by
  unfold readBounded
  cases hnode : files path with
  | file content =>
    change (if limit < content.length then _ else _) = Except.ok data ↔ _
    rw [reject, guard_eq_ok_iff, Nat.not_lt]
    constructor
    · rintro ⟨hlength, hdata⟩
      obtain rfl := Except.ok.inj hdata
      exact ⟨rfl, hlength⟩
    · rintro ⟨hdata, hlength⟩
      obtain rfl := Python.Node.file.inj hdata
      exact ⟨hlength, rfl⟩
  | unreadable size =>
    change (if limit < size then _ else _) = Except.ok data ↔ _
    rw [reject, guard_eq_ok_iff]
    simp
  | _ => simp [Python.Node.fileSize]

/-- A value has the keys of an object in their order, and is equal to it, exactly when it has the
keys with equal values. -/
theorem isObjectWith_and_same_iff (value : Json) {keys : List String}
    {others : List (Text × Json)} (hothers : Dict.keys others = keys.map points)
    (hnodup : (keys.map points).Nodup) :
    isObjectWith keys (some value) = true ∧ value.same (.object others) = true ↔
      ∃ members, value = .object members ∧ List.Forall₂ (fun member other =>
        member.1 = other.1 ∧ member.2.same other.2 = true) members others := by
  cases value with
  | object members =>
    have hiff (hkeys : Dict.keys members = Dict.keys others) :=
      Json.sameMembers_iff_forall₂ hkeys (hothers ▸ hnodup)
    rw [isObjectWith, beq_iff_eq, ← hothers, Json.same, Bool.and_eq_true, beq_iff_eq]
    constructor
    · rintro ⟨hkeys, -, hmembers⟩
      exact ⟨members, rfl, (hiff hkeys).mp hmembers⟩
    · rintro ⟨_, ⟨⟩, hmembers⟩
      have hkeys : Dict.keys members = Dict.keys others :=
        Outcome.map_eq_map_of_forall₂ hmembers fun _ _ h => h.1
      exact ⟨hkeys, hmembers.length_eq, (hiff hkeys).mpr hmembers⟩
  | _ => simp [isObjectWith]

/-- The Gradle section. -/
theorem gradle_iff {value : Json} :
    isObjectWith ["version"] (some value) = true ∧ value.same (.object gradleMembers) = true ↔
      value = .object gradleMembers := by
  rw [isObjectWith_and_same_iff value rfl (by decide)]
  simp [gradleMembers, List.forall₂_cons_right_iff, Json.same_str_iff]

/-- The archive. -/
theorem archive_iff {value : Json} :
    isObjectWith ARCHIVE_KEYS (some value) = true ∧ value.same (.object archiveMembers) = true ↔
      value = .object archiveMembers := by
  rw [isObjectWith_and_same_iff value rfl (by decide)]
  simp [archiveMembers, List.forall₂_cons_right_iff, Json.same_str_iff]

/-- The sections of a document and the archive of a Java section. -/
theorem member?_members (a b c : Json) :
    member? "java" (.object (manifestMembers a b c)) = some b ∧
      member? "gradle" (.object (manifestMembers a b c)) = some c ∧
      member? "archive" (.object (javaMembers a b c)) = some c := by
  simp [member?, manifestMembers, javaMembers, Dict.get?_cons]

/-- The Java section, with any kind of number for the release and the version of class files. -/
theorem java_iff {value : Json} :
    isObjectWith JAVA_KEYS (some value) = true ∧
        isObjectWith ARCHIVE_KEYS (member? "archive" value) = true ∧
        value.same (.object (javaMembers (.int 17) (.int 61) (.object archiveMembers))) = true ↔
      ∃ release classMajor : Json, release.numeric = some (Number.ofInt 17) ∧
        classMajor.numeric = some (Number.ofInt 61) ∧
        value = .object (javaMembers release classMajor (.object archiveMembers)) := by
  have hsection := isObjectWith_and_same_iff value (show Dict.keys (javaMembers (.int 17) (.int 61)
    (.object archiveMembers)) = JAVA_KEYS.map points from rfl) (by decide)
  constructor
  · rintro ⟨hkeys, harchive, hsame⟩
    obtain ⟨members, rfl, hmembers⟩ := hsection.mp ⟨hkeys, hsame⟩
    simp only [javaMembers, List.forall₂_cons_right_iff, List.forall₂_nil_right_iff,
      Json.same_str_iff, Json.same_int_iff] at hmembers
    obtain ⟨⟨_, _⟩, _, ⟨rfl, rfl⟩, ⟨⟨_, _⟩, _, ⟨rfl, rfl⟩, ⟨⟨_, _⟩, _, ⟨rfl, rfl⟩,
      ⟨⟨_, release⟩, _, ⟨rfl, hrelease⟩, ⟨⟨_, classMajor⟩, _, ⟨rfl, hclassMajor⟩,
      ⟨⟨_, archive⟩, _, ⟨rfl, hsameArchive⟩, rfl, rfl⟩, rfl⟩, rfl⟩, rfl⟩, rfl⟩, rfl⟩ := hmembers
    change isObjectWith ARCHIVE_KEYS (member? "archive" (.object
      (javaMembers release classMajor archive))) = true at harchive
    rw [(member?_members _ _ _).2.2] at harchive
    obtain rfl := archive_iff.mp ⟨harchive, hsameArchive⟩
    exact ⟨release, classMajor, hrelease, hclassMajor, rfl⟩
  · rintro ⟨release, classMajor, hrelease, hclassMajor, rfl⟩
    obtain ⟨harchiveKeys, harchive⟩ := archive_iff.mpr rfl
    have hmembers := hsection.mpr ⟨_, rfl, by
      simp only [javaMembers, List.forall₂_cons, Json.same_str_iff, Json.same_int_iff, true_and]
      exact ⟨hrelease, hclassMajor, harchive, .nil⟩⟩
    rw [(member?_members _ _ _).2.2]
    exact ⟨hmembers.1, harchiveKeys, hmembers.2⟩

/-- A document that passes is the reviewed one, with any kind of number for its numbers. -/
theorem checkManifest_eq_ok_iff {value document : Json} :
    checkManifest value = .ok document ↔ value = document ∧
      ∃ schemaVersion release classMajor : Json, schemaVersion.IsOne ∧
        release.numeric = some (Number.ofInt 17) ∧ classMajor.numeric = some (Number.ofInt 61) ∧
        document = manifestWith schemaVersion release classMajor := by
  have hsections := isObjectWith_and_same_iff value (show Dict.keys (manifestMembers (.int 1)
    (.object (javaMembers (.int 17) (.int 61) (.object archiveMembers)))
    (.object gradleMembers)) = TOP_LEVEL_KEYS.map points from rfl) (by decide)
  have hchecks : checkManifest value = .ok document ↔ value = document ∧
      isObjectWith TOP_LEVEL_KEYS (some value) = true ∧
      isObjectWith JAVA_KEYS (member? "java" value) = true ∧
      isObjectWith ARCHIVE_KEYS ((member? "java" value).bind (member? "archive")) = true ∧
      isObjectWith ["version"] (member? "gradle" value) = true ∧
      value.same expectedManifest = true := by
    cases value with
    | object members =>
      have hequal : (Json.object members).equal expectedManifest =
          (Json.object members).same expectedManifest := Bool.true_and _
      simp only [checkManifest, reject, guard_eq_ok_iff, not_not, hequal, Except.ok.injEq]
      tauto
    | _ => simp [checkManifest, reject, isObjectWith]
  rw [hchecks]
  refine and_congr_right fun heq => heq ▸ ?_
  constructor
  · rintro ⟨htop, hjava, harchive, hgradle, hsame⟩
    obtain ⟨members, rfl, hmembers⟩ := hsections.mp ⟨htop, hsame⟩
    simp only [manifestMembers, List.forall₂_cons_right_iff, List.forall₂_nil_right_iff,
      Json.same_one_iff] at hmembers
    obtain ⟨⟨_, schemaVersion⟩, _, ⟨rfl, hschemaVersion⟩, ⟨⟨_, java⟩, _, ⟨rfl, hsameJava⟩,
      ⟨⟨_, gradle⟩, _, ⟨rfl, hsameGradle⟩, rfl, rfl⟩, rfl⟩, rfl⟩ := hmembers
    change isObjectWith JAVA_KEYS (member? "java" (.object
      (manifestMembers schemaVersion java gradle))) = true at hjava
    change isObjectWith ARCHIVE_KEYS ((member? "java" (.object
      (manifestMembers schemaVersion java gradle))).bind (member? "archive")) = true at harchive
    change isObjectWith ["version"] (member? "gradle" (.object
      (manifestMembers schemaVersion java gradle))) = true at hgradle
    rw [(member?_members _ _ _).1] at hjava harchive
    rw [(member?_members _ _ _).2.1] at hgradle
    obtain rfl := gradle_iff.mp ⟨hgradle, hsameGradle⟩
    obtain ⟨release, classMajor, hrelease, hclassMajor, rfl⟩ :=
      java_iff.mp ⟨hjava, harchive, hsameJava⟩
    exact ⟨schemaVersion, release, classMajor, hschemaVersion, hrelease, hclassMajor, rfl⟩
  · rintro ⟨schemaVersion, release, classMajor, hschemaVersion, hrelease, hclassMajor, rfl⟩
    obtain ⟨hjava, harchive, hsameJava⟩ :=
      java_iff.mpr ⟨release, classMajor, hrelease, hclassMajor, rfl⟩
    obtain ⟨hgradle, hsameGradle⟩ := gradle_iff.mpr rfl
    have hmembers := hsections.mpr ⟨_, rfl, by
      simp only [manifestMembers, List.forall₂_cons, Json.same_one_iff, true_and]
      exact ⟨hschemaVersion, hsameJava, hsameGradle, .nil⟩⟩
    rw [manifestWith, (member?_members _ _ _).1, (member?_members _ _ _).2.1]
    exact ⟨hmembers.1, hjava, harchive, hgradle, hmembers.2⟩

/-- A manifest is accepted exactly when its octets have the pinned digest and are loaded as the
reviewed document, whatever kind of number stands for its numbers. -/
theorem readManifest_eq_ok_iff (json : JsonLoads) (sha256 : Hasher 64) (files : Files)
    (path : PurePath) (document : Json) :
    readManifest json sha256 files path = .ok document ↔
      ∃ data, files path = .file data ∧ data.length ≤ MAX_MANIFEST_BYTES ∧
        sha256.hash data = points EXPECTED_MANIFEST_SHA256 ∧
        ¬[0xef, 0xbb, 0xbf] <+: data ∧ 0 ∉ data ∧ loadManifest json data = .ok document ∧
        ∃ schemaVersion release classMajor : Json, schemaVersion.IsOne ∧
          release.numeric = some (Number.ofInt 17) ∧ classMajor.numeric = some (Number.ofInt 61) ∧
          document = manifestWith schemaVersion release classMajor := by
  have hparse (data : Bytes) : parseManifest json sha256 data = .ok document ↔
      sha256.hash data = points EXPECTED_MANIFEST_SHA256 ∧ ¬[0xef, 0xbb, 0xbf] <+: data ∧
        0 ∉ data ∧ ∃ value, loadManifest json data = .ok value ∧
          checkManifest value = .ok document := by
    rw [parseManifest, reject, reject, guard_eq_ok_iff, guard_eq_ok_iff, not_not, not_or, and_assoc]
    refine and_congr_right fun _ => and_congr_right fun _ => and_congr_right fun _ => ?_
    cases hload : loadManifest json data with
    | error error => cases error <;> simp [reject]
    | ok value => simp
  simp only [readManifest, bind_eq_ok_iff, readBounded_eq_ok_iff, hparse, checkManifest_eq_ok_iff]
  constructor
  · rintro ⟨data, ⟨hfile, hlength⟩, hdigest, hmark, hnul, _, hload, rfl, hdocument⟩
    exact ⟨data, hfile, hlength, hdigest, hmark, hnul, hload, hdocument⟩
  · rintro ⟨data, hfile, hlength, hdigest, hmark, hnul, hload, hdocument⟩
    exact ⟨data, ⟨hfile, hlength⟩, hdigest, hmark, hnul, _, hload, rfl, hdocument⟩

end RealityCore.Toolchain
