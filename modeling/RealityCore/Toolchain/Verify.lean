import RealityCore.Library.Logged
import RealityCore.Toolchain.Properties

/-!
# Verifying the toolchain

`main` checks the manifest, the Java home, the runtime with its tools, the archive and the commit,
in this order. The commands that it runs are noted: before any of them is run the manifest is read
and all four tools are found, each a file of the `bin` directory itself, and the commands that are
run are always a first part of the same five.
-/

namespace RealityCore.Toolchain

open Logged (of note)
open Outcome (bind_eq_ok_iff guard_eq_ok_iff)
open Python (Bytes CodePoint Dict Files Hasher Json JsonLoads PurePath Str Text decodeUtf8
  encodeUtf8 points readChunks splitLines strip)
open Regex (Pattern fullMatch)

def MAX_COMMAND_OUTPUT_BYTES : ℕ := 64 * 1024

/-- `[0-9a-f]{40}\Z` -/
def EXPECTED_HEAD_RE : Pattern Char :=
  .seq (.times (.set fun c => c.isDigit || ('a' ≤ c && c ≤ 'f')) 40) .atEnd

/-- The words of a command. -/
abbrev Command := List Text

abbrev Checked (α : Type) := Logged Command Failure α

/-- What the script is run in: the files, the resolution of paths (nothing for an `OSError` where it
is strict), the files that may be executed, what a command writes in a directory (nothing when it
fails), `JAVA_HOME`, and the attempts to download the archive. -/
structure Environment where
  json : JsonLoads
  sha256 : Hasher 64
  files : Files
  resolve : Text → Option PurePath
  resolveAny : Text → PurePath
  isTool : PurePath → Bool
  isWindows : Bool
  run : Command → PurePath → Option Bytes
  environmentHome : Option Text
  decimal : Char → Option ℕ
  attempts : ℕ → Attempt

/-- The arguments; without an archive it is downloaded. -/
structure Arguments where
  manifest : PurePath
  repoRoot : Text
  javaHome : Option Text
  archive : Option Text
  expectedHead : Option Str

/-- The tools that are looked up. -/
structure Tools where
  java : PurePath
  javac : PurePath
  javadoc : PurePath
  jdeps : PurePath

/-- A call that may raise an `OSError`. -/
def orOSError {α : Type} : Option α → Result α
  | none => .error .osError
  | some a => .ok a

/-- `_run(command, cwd=cwd)` -/
def run (env : Environment) (cwd : PurePath) (command : Command) : Checked Str :=
  note command <|
    match env.run command cwd with
    | none => .error (.verificationError
        (points "failed to execute " ++ List.intercalate (points " ") command))
    | some output =>
      if MAX_COMMAND_OUTPUT_BYTES < output.length then
        .error (.verificationError
          (points "output from " ++ command.headD [] ++ points " exceeded the bounded limit"))
      else
        match decodeUtf8 output with
        | none => .error (.verificationError (command.headD [] ++ points " output was not UTF-8"))
        | some text => .ok text

/-- `java_home / "bin" / executable` -/
def executablePath (env : Environment) (javaHome : PurePath) (name : String) : PurePath :=
  javaHome ++ [points "bin", points (if env.isWindows then name ++ ".exe" else name)]

/-- `_tool_path(java_home, name)` -/
def toolPath (env : Environment) (javaHome : PurePath) (name : String) : Result PurePath := do
  let binDirectory ← orOSError (env.resolve (PurePath.toText (javaHome ++ [points "bin"])))
  let path := executablePath env javaHome name
  if ¬env.isTool path then reject s!"missing executable {name} in JAVA_HOME/bin"
  else do
    let resolved ← orOSError (env.resolve path.toText)
    if resolved.parent ≠ binDirectory then
      reject s!"{name} resolves outside the exact JAVA_HOME/bin"
    else .ok resolved

/-- `{name: _tool_path(java_home, name) for name in ("java", "javac", "javadoc", "jdeps")}` -/
def findTools (env : Environment) (javaHome : PurePath) : Result Tools := do
  let java ← toolPath env javaHome "java"
  let javac ← toolPath env javaHome "javac"
  let javadoc ← toolPath env javaHome "javadoc"
  let jdeps ← toolPath env javaHome "jdeps"
  .ok ⟨java, javac, javadoc, jdeps⟩

/-- The properties that are required. -/
def requiredProperties (javaHome : PurePath) : List (String × Text) :=
  [("java.home", javaHome.toText), ("java.vendor", points EXPECTED_JAVA_VENDOR),
    ("java.version", points EXPECTED_JAVA_VERSION),
    ("java.runtime.version", points EXPECTED_JAVA_RUNTIME_VERSION)]

/-- The value of a property. -/
def property? (values : Dict Str Str) (key : String) : Option Text :=
  (values.get? key.toList).map fun value => value.map CodePoint.ofChar

/-- The checks of the properties, the last of which is about the required value of `java.home`. -/
def checkProperties (env : Environment) (javaHome : PurePath) (values : Dict Str Str) :
    Result Unit := do
  (requiredProperties javaHome).forM fun required =>
    if property? values required.1 ≠ some required.2 then
      reject s!"{required.1} is not the reviewed exact value"
    else .ok ()
  if env.resolveAny ((property? values "java.home").getD []) ≠ javaHome then
    reject "java.home is not the declared JAVA_HOME"
  else .ok ()

/-- One of the tools with its expected version. -/
def verifyVersion (env : Environment) (repoRoot : PurePath) (name : String) (tool : PurePath)
    (expected : String) : Checked Unit := do
  let output ← run env repoRoot [tool.toText, points "--version"]
  of (if strip output ≠ expected.toList then reject s!"{name} is not the reviewed exact version"
    else .ok ())

/-- `[str(tools["java"]), "-XshowSettings:properties", "-version"]` -/
def settingsCommand (tools : Tools) : Command :=
  [tools.java.toText, points "-XshowSettings:properties", points "-version"]

/-- `_verify_runtime(java_home, repo_root)` -/
def verifyRuntime (env : Environment) (javaHome repoRoot : PurePath) :
    Checked (PurePath × Dict Str Str) := do
  let tools ← of (findTools env javaHome)
  let output ← run env repoRoot (settingsCommand tools)
  let values ← of (properties output)
  of (checkProperties env javaHome values)
  verifyVersion env repoRoot "javac" tools.javac ("javac " ++ EXPECTED_JAVA_VERSION)
  verifyVersion env repoRoot "javadoc" tools.javadoc ("javadoc " ++ EXPECTED_JAVA_VERSION)
  verifyVersion env repoRoot "jdeps" tools.jdeps EXPECTED_JAVA_VERSION
  of (.ok (tools.java, values))

/-- `_sha256(path)`: the octets are hashed in chunks. -/
def fileSha256 (env : Environment) (path : PurePath) : Result Text :=
  match (env.files path).fileSize with
  | none => reject "JDK archive is missing or is a symlink"
  | some size =>
    if size = 0 ∨ MAX_ARCHIVE_BYTES < size then
      reject "JDK archive size is outside the bounded range"
    else
      match env.files path with
      | .file data =>
        let digest := (readChunks (1024 * 1024) data).foldl env.sha256.update env.sha256.new
        .ok (env.sha256.hexdigest digest)
      | _ => reject "cannot read JDK archive"

/-- `_verify_archive(path)` -/
def verifyArchive (env : Environment) (path : PurePath) : Result Unit := do
  let digest ← fileSha256 env path
  if digest ≠ points EXPECTED_ARCHIVE_SHA256 then
    reject "JDK archive SHA-256 does not match the manifest"
  else .ok ()

/-- The given archive, or a download of it. -/
def obtainArchive (env : Environment) : Option Text → Result Unit
  | some archive => orOSError (env.resolve archive) >>= verifyArchive env
  | none => (downloadAndVerify env.decimal env.attempts (.start env.sha256)).outcome.mapError
      fun error => .verificationError (points error.message)

/-- `["git", "rev-parse", "--verify", "HEAD"]` -/
def gitCommand : Command := ["git", "rev-parse", "--verify", "HEAD"].map points

/-- `_verify_head(repo_root, expected_head)` -/
def verifyHead (env : Environment) (repoRoot : PurePath) (expectedHead : Option Str) :
    Checked Str := do
  let output ← run env repoRoot gitCommand
  let head := strip output
  of (if ¬fullMatch EXPECTED_HEAD_RE head then reject "current HEAD is not a complete commit id"
    else if expectedHead.any fun expected => ¬fullMatch EXPECTED_HEAD_RE expected ∨ head ≠ expected
    then reject "current HEAD does not match the expected commit"
    else .ok head)

/-- `args.java_home or os.environ.get("JAVA_HOME")` -/
def declaredHome (env : Environment) (args : Arguments) : Option Text :=
  args.javaHome.or (env.environmentHome.filter fun home => home ≠ [])

/-- The Java home, which may be declared twice. -/
def findHome (env : Environment) (args : Arguments) : Result PurePath :=
  match declaredHome env args with
  | none => reject "JAVA_HOME or --java-home is required"
  | some value => do
    let javaHome ← orOSError (env.resolve value)
    if env.environmentHome.any fun home => home ≠ [] ∧ env.resolveAny home ≠ javaHome then
      reject "JAVA_HOME and --java-home disagree"
    else .ok javaHome

/-- The body of the `try` statement, with the manifest and the commit. -/
def verify (env : Environment) (args : Arguments) : Checked (Json × Str) := do
  let manifest ← of (readManifest env.json env.sha256 env.files args.manifest)
  let repoRoot ← of (orOSError (env.resolve args.repoRoot))
  let javaHome ← of (findHome env args)
  let _ ← verifyRuntime env javaHome repoRoot
  of (obtainArchive env args.archive)
  let head ← verifyHead env repoRoot args.expectedHead
  of (.ok (manifest, head))

/-- `except (OSError, VerificationError)` -/
def isCaught : Failure → Bool
  | .verificationError _ | .osError => true
  | .otherError => false

/-- `main(argv)` -/
def main (env : Environment) (args : Arguments) : Checked ℕ :=
  let run := verify env args
  ⟨run.log, match run.outcome with
    | .ok _ => .ok 0
    | .error failure => if isCaught failure then .ok 1 else .error failure⟩

/-! ## What is run -/

/-- The words of a version query. -/
def versionCommand (tool : PurePath) : Command := [tool.toText, points "--version"]

/-- The commands that examine a runtime. -/
def runtimePlan (tools : Tools) : List Command :=
  [settingsCommand tools, versionCommand tools.javac, versionCommand tools.javadoc,
    versionCommand tools.jdeps]

/-- The commands of a whole verification. -/
def plan (tools : Tools) : List Command := runtimePlan tools ++ [gitCommand]

/-- A tool of a Java home: a file that may be executed and that is one of the `bin` directory
itself, wherever links lead. -/
def IsTool (env : Environment) (javaHome : PurePath) (name : String) (tool : PurePath) : Prop :=
  env.isTool (executablePath env javaHome name) = true ∧
    env.resolve (executablePath env javaHome name).toText = some tool ∧
    env.resolve (PurePath.toText (javaHome ++ [points "bin"])) = some tool.parent

/-- What holds before a command is run. -/
structure Ready (env : Environment) (args : Arguments) (repoRoot javaHome : PurePath)
    (tools : Tools) : Prop where
  manifest : ∃ document,
    readManifest env.json env.sha256 env.files args.manifest = .ok document
  root : env.resolve args.repoRoot = some repoRoot
  home : findHome env args = .ok javaHome
  java : IsTool env javaHome "java" tools.java
  javac : IsTool env javaHome "javac" tools.javac
  javadoc : IsTool env javaHome "javadoc" tools.javadoc
  jdeps : IsTool env javaHome "jdeps" tools.jdeps

/-- A call succeeds when it has a value. -/
theorem orOSError_eq_ok_iff {α : Type} {value : Option α} {a : α} :
    orOSError value = .ok a ↔ value = some a := by
  cases value <;> simp [orOSError]

/-- A tool is found when it is one. -/
theorem toolPath_eq_ok_iff {env : Environment} {javaHome tool : PurePath} {name : String} :
    toolPath env javaHome name = .ok tool ↔ IsTool env javaHome name tool := by
  simp only [toolPath, IsTool, reject, bind_eq_ok_iff, orOSError_eq_ok_iff, guard_eq_ok_iff,
    not_not, Except.ok.injEq]
  constructor
  · rintro ⟨_, hbin, htool, _, hresolved, rfl, rfl⟩
    exact ⟨htool, hresolved, hbin⟩
  · rintro ⟨htool, hresolved, hbin⟩
    exact ⟨_, hbin, htool, _, hresolved, rfl, rfl⟩

/-- The four tools are found when each is one. -/
theorem findTools_eq_ok_iff {env : Environment} {javaHome : PurePath} {tools : Tools} :
    findTools env javaHome = .ok tools ↔ IsTool env javaHome "java" tools.java ∧
      IsTool env javaHome "javac" tools.javac ∧ IsTool env javaHome "javadoc" tools.javadoc ∧
      IsTool env javaHome "jdeps" tools.jdeps := by
  simp only [findTools, bind_eq_ok_iff, toolPath_eq_ok_iff, Except.ok.injEq]
  constructor
  · rintro ⟨_, hjava, _, hjavac, _, hjavadoc, _, hjdeps, rfl⟩
    exact ⟨hjava, hjavac, hjavadoc, hjdeps⟩
  · rintro ⟨hjava, hjavac, hjavadoc, hjdeps⟩
    exact ⟨_, hjava, _, hjavac, _, hjavadoc, _, hjdeps, rfl⟩

/-- A command is noted. -/
theorem run_follows (env : Environment) (cwd : PurePath) (command : Command) :
    (run env cwd command).Follows [command] := Logged.follows_note _ _

/-- The version of a tool is asked for once. -/
theorem verifyVersion_follows (env : Environment) (repoRoot : PurePath) (name : String)
    (tool : PurePath) (expected : String) :
    (verifyVersion env repoRoot name tool expected).Follows [versionCommand tool] :=
  (run_follows env repoRoot _).bind fun _ _ => Logged.follows_of _

/-- The runtime is examined with the tools that are found. -/
theorem verifyRuntime_follows {env : Environment} {javaHome repoRoot : PurePath} {tools : Tools}
    (h : findTools env javaHome = .ok tools) :
    (verifyRuntime env javaHome repoRoot).Follows (runtimePlan tools) := by
  rw [verifyRuntime, h, Logged.of_ok_bind]
  refine (run_follows env repoRoot _).bind fun output _ => ?_
  refine (Logged.follows_of (properties output)).bind fun values _ => ?_
  refine (Logged.follows_of (checkProperties env javaHome values)).bind fun _ _ => ?_
  refine (verifyVersion_follows env repoRoot _ tools.javac _).bind fun _ _ => ?_
  refine (verifyVersion_follows env repoRoot _ tools.javadoc _).bind fun _ _ => ?_
  exact (verifyVersion_follows env repoRoot _ tools.jdeps _).bind fun _ _ => Logged.follows_of _

/-- The commit is asked for once. -/
theorem verifyHead_follows (env : Environment) (repoRoot : PurePath) (expectedHead : Option Str) :
    (verifyHead env repoRoot expectedHead).Follows [gitCommand] :=
  (run_follows env repoRoot _).bind fun _ _ => Logged.follows_of _

/-! ## What is accepted -/

/-- A command writes a short text. -/
def Answers (env : Environment) (cwd : PurePath) (command : Command) (text : Str) : Prop :=
  env.run command cwd = some (encodeUtf8 text) ∧
    (encodeUtf8 text).length ≤ MAX_COMMAND_OUTPUT_BYTES

/-- A version query is answered as expected, up to white space around the answer. -/
def HasVersion (env : Environment) (cwd tool : PurePath) (expected : String) : Prop :=
  ∃ output, Answers env cwd (versionCommand tool) output ∧ strip output = expected.toList

/-- The settings of a runtime have the required properties, each key once. -/
structure HasSettings (env : Environment) (javaHome cwd : PurePath) (tools : Tools) : Prop where
  answer : ∃ output, Answers env cwd (settingsCommand tools) output ∧
    (Dict.keys ((splitLines output).filterMap propertyOf)).Nodup ∧
    ∀ required ∈ requiredProperties javaHome,
      property? ((splitLines output).filterMap propertyOf) required.1 = some required.2
  resolved : env.resolveAny javaHome.toText = javaHome

/-- The archive is the reviewed one: the given file, or what one of the attempts downloads. -/
def HasArchive (env : Environment) : Option Text → Prop
  | some archive => ∃ path data, env.resolve archive = some path ∧ env.files path = .file data ∧
      0 < data.length ∧ data.length ≤ MAX_ARCHIVE_BYTES ∧
      env.sha256.hash data = points EXPECTED_ARCHIVE_SHA256
  | none => ∃ i < DOWNLOAD_ATTEMPTS, (env.attempts i).IsExact env.decimal env.sha256

/-- The commit is a complete one and the expected one, if any. -/
def HasHead (env : Environment) (cwd : PurePath) (expectedHead : Option Str) : Prop :=
  ∃ output, Answers env cwd gitCommand output ∧
    fullMatch EXPECTED_HEAD_RE (strip output) = true ∧
    ∀ expected ∈ expectedHead, strip output = expected

/-- A command succeeds with the text that it writes. -/
theorem run_eq_ok_iff {env : Environment} {cwd : PurePath} {command : Command} {text : Str} :
    (run env cwd command).outcome = .ok text ↔ Answers env cwd command text := by
  rw [run, Logged.outcome_note, Answers]
  cases env.run command cwd with
  | none => simp
  | some output =>
    dsimp only
    rw [guard_eq_ok_iff, Nat.not_lt, Option.some.injEq]
    cases hdecode : decodeUtf8 output with
    | none =>
      refine iff_of_false (by simp) ?_
      rintro ⟨rfl, -⟩
      rw [Python.decodeUtf8_encodeUtf8] at hdecode
      cases hdecode
    | some found =>
      have hencode := Python.encodeUtf8_of_decodeUtf8 hdecode
      constructor
      · rintro ⟨hlength, htext⟩
        obtain rfl := Except.ok.inj htext
        exact ⟨hencode.symm, hencode.symm ▸ hlength⟩
      · rintro ⟨rfl, hlength⟩
        rw [Python.decodeUtf8_encodeUtf8] at hdecode
        exact ⟨hlength, congrArg Except.ok (Option.some.inj hdecode).symm⟩

/-- A version is verified when it is answered. -/
theorem verifyVersion_eq_ok_iff {env : Environment} {cwd tool : PurePath} {name expected : String}
    {u : Unit} :
    (verifyVersion env cwd name tool expected).outcome = .ok u ↔
      HasVersion env cwd tool expected := by
  simp only [verifyVersion, Logged.outcome_bind_eq_ok_iff, run_eq_ok_iff, Logged.outcome_of,
    reject, guard_eq_ok_iff, not_not, and_true, HasVersion, versionCommand]

/-- The properties pass when the required ones are there. -/
theorem checkProperties_eq_ok_iff {env : Environment} {javaHome : PurePath}
    {values : Dict Str Str} {u : Unit} :
    checkProperties env javaHome values = .ok u ↔
      (∀ required ∈ requiredProperties javaHome,
        property? values required.1 = some required.2) ∧
        env.resolveAny javaHome.toText = javaHome := by
  rw [checkProperties, bind_eq_ok_iff]
  have hloop : ((requiredProperties javaHome).forM fun required =>
      if property? values required.1 ≠ some required.2 then
        reject s!"{required.1} is not the reviewed exact value"
      else .ok () : Result Unit) = .ok () ↔ ∀ required ∈ requiredProperties javaHome,
        property? values required.1 = some required.2 := by
    refine Outcome.forM_eq_ok_iff.trans (forall₂_congr fun required _ => ?_)
    rw [reject, guard_eq_ok_iff, not_not]
    exact and_iff_left rfl
  constructor
  · rintro ⟨⟨⟩, hrequired, hhome⟩
    have hproperties := hloop.mp hrequired
    have hjavaHome := hproperties ("java.home", javaHome.toText) (by simp [requiredProperties])
    rw [hjavaHome, reject, guard_eq_ok_iff, not_not] at hhome
    exact ⟨hproperties, hhome.1⟩
  · rintro ⟨hproperties, hhome⟩
    have hjavaHome := hproperties ("java.home", javaHome.toText) (by simp [requiredProperties])
    refine ⟨(), hloop.mpr hproperties, ?_⟩
    rw [hjavaHome, reject, guard_eq_ok_iff, not_not]
    exact ⟨hhome, rfl⟩

/-- A given archive is verified when its octets have the digest. -/
theorem obtainArchive_eq_ok_iff {env : Environment} {archive : Option Text} {u : Unit} :
    obtainArchive env archive = .ok u ↔ HasArchive env archive := by
  cases archive with
  | some archive =>
    have hdigest (path : PurePath) (digest : Text) : fileSha256 env path = .ok digest ↔
        ∃ data, env.files path = .file data ∧ 0 < data.length ∧
          data.length ≤ MAX_ARCHIVE_BYTES ∧ digest = env.sha256.hash data := by
      unfold fileSha256
      cases hnode : env.files path with
      | file data =>
        change (if data.length = 0 ∨ MAX_ARCHIVE_BYTES < data.length then _ else _) =
          Except.ok digest ↔ _
        rw [reject, guard_eq_ok_iff, not_or, Nat.not_lt, ← ne_eq, ← Nat.pos_iff_ne_zero]
        dsimp only
        rw [env.sha256.foldl_update, Python.flatten_readChunks (by decide)]
        constructor
        · rintro ⟨⟨hpositive, hlength⟩, hhash⟩
          exact ⟨data, rfl, hpositive, hlength, (Except.ok.inj hhash).symm⟩
        · rintro ⟨other, hother, hpositive, hlength, rfl⟩
          obtain rfl := Python.Node.file.inj hother
          exact ⟨⟨hpositive, hlength⟩, rfl⟩
      | unreadable size =>
        change (if size = 0 ∨ MAX_ARCHIVE_BYTES < size then _ else _) = Except.ok digest ↔ _
        rw [reject, guard_eq_ok_iff]
        simp [reject]
      | _ => simp [Python.Node.fileSize, reject]
    simp only [obtainArchive, HasArchive, verifyArchive, reject, bind_eq_ok_iff,
      orOSError_eq_ok_iff, guard_eq_ok_iff, not_not, and_true, hdigest]
    constructor
    · rintro ⟨path, hpath, _, ⟨data, hfile, hpositive, hlength, rfl⟩, hhash⟩
      exact ⟨path, data, hpath, hfile, hpositive, hlength, hhash⟩
    · rintro ⟨path, data, hpath, hfile, hpositive, hlength, hhash⟩
      exact ⟨path, hpath, _, ⟨data, hfile, hpositive, hlength, rfl⟩, hhash⟩
  | none =>
    have houtcome : obtainArchive env none = .ok u ↔
        (downloadAndVerify env.decimal env.attempts (.start env.sha256)).outcome = .ok () := by
      rw [obtainArchive]
      cases (downloadAndVerify env.decimal env.attempts (.start env.sha256)).outcome <;>
        simp [Except.mapError]
    rw [houtcome, downloadAndVerify, HasArchive]
    constructor
    · intro hok
      obtain ⟨result, hmade, hresult⟩ := downloadLoop_outcome.mp hok
      obtain ⟨i, hi, rfl⟩ := List.getElem_of_mem hmade
      obtain ⟨attempt, before, hattempt, heq⟩ :=
        (downloadLoop_made _ _ _ _).2 i _ (List.getElem?_eq_getElem hi)
      rw [List.getElem?_map, Option.map_eq_some_iff] at hattempt
      obtain ⟨index, hindex, rfl⟩ := hattempt
      exact ⟨index, List.mem_range.mp (List.mem_of_getElem? hindex),
        tryDownload_eq_ok_iff.mp (heq ▸ hresult)⟩
    · rintro ⟨i, hi, hexact⟩
      exact downloadLoop_of_exact
        ⟨_, List.mem_map_of_mem (List.mem_range.mpr hi), hexact⟩

/-- A runtime is verified when its tools are found and its settings and versions are the required
ones. -/
theorem exists_verifyRuntime_iff {env : Environment} {javaHome cwd : PurePath} :
    (∃ result, (verifyRuntime env javaHome cwd).outcome = .ok result) ↔
      ∃ tools, findTools env javaHome = .ok tools ∧ HasSettings env javaHome cwd tools ∧
        HasVersion env cwd tools.javac ("javac " ++ EXPECTED_JAVA_VERSION) ∧
        HasVersion env cwd tools.javadoc ("javadoc " ++ EXPECTED_JAVA_VERSION) ∧
        HasVersion env cwd tools.jdeps EXPECTED_JAVA_VERSION := by
  simp only [verifyRuntime, Logged.outcome_bind_eq_ok_iff, Logged.outcome_of, run_eq_ok_iff,
    properties_eq_ok_iff, checkProperties_eq_ok_iff, verifyVersion_eq_ok_iff]
  constructor
  · rintro ⟨_, tools, htools, output, hanswer, _, ⟨rfl, hnodup⟩, ⟨⟩, ⟨hrequired, hhome⟩, ⟨⟩, hjavac,
      ⟨⟩, hjavadoc, ⟨⟩, hjdeps, -⟩
    exact ⟨tools, htools, ⟨⟨output, hanswer, hnodup, hrequired⟩, hhome⟩, hjavac, hjavadoc, hjdeps⟩
  · rintro ⟨tools, htools, ⟨⟨output, hanswer, hnodup, hrequired⟩, hhome⟩, hjavac, hjavadoc, hjdeps⟩
    exact ⟨_, tools, htools, output, hanswer, _, ⟨rfl, hnodup⟩, (), ⟨hrequired, hhome⟩, (), hjavac,
      (), hjavadoc, (), hjdeps, rfl⟩

/-- The commit is verified when it is the one. -/
theorem exists_verifyHead_iff {env : Environment} {cwd : PurePath} {expectedHead : Option Str} :
    (∃ head, (verifyHead env cwd expectedHead).outcome = .ok head) ↔
      HasHead env cwd expectedHead := by
  have hexpected (head : Str) (hhead : fullMatch EXPECTED_HEAD_RE head = true) :
      ¬(expectedHead.any fun expected => ¬fullMatch EXPECTED_HEAD_RE expected ∨ head ≠ expected) ↔
        ∀ expected ∈ expectedHead, head = expected := by
    cases expectedHead with
    | none => simp
    | some expected =>
      simp only [Option.any_some, Option.mem_def, Option.some.injEq, forall_eq',
        decide_eq_true_eq, not_or, not_not]
      constructor
      · exact fun h => h.2
      · rintro rfl
        exact ⟨hhead, rfl⟩
  simp only [verifyHead, Logged.outcome_bind_eq_ok_iff, Logged.outcome_of, run_eq_ok_iff, reject,
    guard_eq_ok_iff, not_not, HasHead]
  constructor
  · rintro ⟨_, output, hanswer, hcomplete, hmatches, -⟩
    exact ⟨output, hanswer, hcomplete, (hexpected _ hcomplete).mp hmatches⟩
  · rintro ⟨output, hanswer, hcomplete, hmatches⟩
    exact ⟨_, output, hanswer, hcomplete, (hexpected _ hcomplete).mpr hmatches, rfl⟩

/-! ## The whole verification -/

/-- The status is zero when the verification succeeds. -/
theorem outcome_main_eq_zero_iff {env : Environment} {args : Arguments} :
    (main env args).outcome = .ok 0 ↔ ∃ result, (verify env args).outcome = .ok result := by
  rw [main]
  cases (verify env args).outcome with
  | ok result => simp
  | error failure => cases failure <;> simp [isCaught]

/-- The verification is ready, or it fails before it runs anything. -/
theorem verify_cases (env : Environment) (args : Arguments) :
    (∃ failure, verify env args = of (.error failure)) ∨
      ∃ manifest repoRoot javaHome tools, Ready env args repoRoot javaHome tools ∧
        findTools env javaHome = .ok tools ∧ verify env args = (do
          let _ ← verifyRuntime env javaHome repoRoot
          of (obtainArchive env args.archive)
          let head ← verifyHead env repoRoot args.expectedHead
          of (.ok (manifest, head))) := by
  rw [verify]
  cases hmanifest : readManifest env.json env.sha256 env.files args.manifest with
  | error failure => exact .inl ⟨failure, rfl⟩
  | ok manifest =>
  rw [Logged.of_ok_bind]
  cases hroot : orOSError (env.resolve args.repoRoot) with
  | error failure => exact .inl ⟨failure, rfl⟩
  | ok repoRoot =>
  rw [Logged.of_ok_bind]
  cases hhome : findHome env args with
  | error failure => exact .inl ⟨failure, rfl⟩
  | ok javaHome =>
  rw [Logged.of_ok_bind]
  cases htools : findTools env javaHome with
  | error failure =>
    rw [verifyRuntime, htools]
    exact .inl ⟨failure, rfl⟩
  | ok tools =>
    obtain ⟨hjava, hjavac, hjavadoc, hjdeps⟩ := findTools_eq_ok_iff.mp htools
    exact .inr ⟨manifest, repoRoot, javaHome, tools, ⟨⟨manifest, hmanifest⟩,
      orOSError_eq_ok_iff.mp hroot, hhome, hjava, hjavac, hjavadoc, hjdeps⟩, htools, rfl⟩

/-- No command is run before the manifest is read and all tools are found in the `bin` directory of
the Java home, the commit is not asked for before the archive is verified, and the commands that
are run are a first part of the plan, and all of it when the status is zero. -/
theorem main_follows (env : Environment) (args : Arguments) :
    (main env args).log = [] ∧ (main env args).outcome ≠ .ok 0 ∨
      ∃ repoRoot javaHome tools, Ready env args repoRoot javaHome tools ∧
        (main env args).log <+: plan tools ∧
        (gitCommand ∈ (main env args).log → HasArchive env args.archive) ∧
        ((main env args).outcome = .ok 0 → (main env args).log = plan tools) := by
  rcases verify_cases env args with
    ⟨failure, hfails⟩ | ⟨manifest, repoRoot, javaHome, tools, hready, htools, hverify⟩
  · refine .inl ⟨?_, fun hzero => ?_⟩
    · rw [main, hfails]
      rfl
    · obtain ⟨result, hresult⟩ := outcome_main_eq_zero_iff.mp hzero
      rw [hfails] at hresult
      cases hresult
  have hruntime : (verifyRuntime env javaHome repoRoot).Follows (runtimePlan tools) :=
    verifyRuntime_follows htools
  have hfollows : (verify env args).Follows (plan tools) := by
    rw [hverify]
    refine hruntime.bind fun _ _ => ?_
    refine (Logged.follows_of (obtainArchive env args.archive)).bind fun _ _ => ?_
    exact (verifyHead_follows env repoRoot args.expectedHead).bind fun _ _ => Logged.follows_of _
  refine .inr ⟨repoRoot, javaHome, tools, hready, hfollows.front, fun hgit => ?_, fun hzero => ?_⟩
  · cases harchive : obtainArchive env args.archive with
    | ok => exact obtainArchive_eq_ok_iff.mp harchive
    | error failure =>
      have hshort : (verify env args).Follows (runtimePlan tools ++ []) := by
        rw [hverify, harchive]
        exact hruntime.bind fun _ _ => Logged.follows_of (.error failure)
      have hmem := hshort.front.subset hgit
      simp [runtimePlan, settingsCommand, versionCommand, gitCommand] at hmem
  · obtain ⟨result, hresult⟩ := outcome_main_eq_zero_iff.mp hzero
    exact hfollows.whole result hresult

/-- The status is zero exactly when the verification is ready, the runtime has the required
properties and versions, the archive is the reviewed one and the commit is the expected one. -/
theorem main_eq_zero_iff_reviewed (env : Environment) (args : Arguments) :
    (main env args).outcome = .ok 0 ↔ ∃ repoRoot javaHome tools,
      Ready env args repoRoot javaHome tools ∧ HasSettings env javaHome repoRoot tools ∧
        HasVersion env repoRoot tools.javac ("javac " ++ EXPECTED_JAVA_VERSION) ∧
        HasVersion env repoRoot tools.javadoc ("javadoc " ++ EXPECTED_JAVA_VERSION) ∧
        HasVersion env repoRoot tools.jdeps EXPECTED_JAVA_VERSION ∧
        HasArchive env args.archive ∧ HasHead env repoRoot args.expectedHead := by
  rw [outcome_main_eq_zero_iff]
  simp only [verify, Logged.outcome_bind_eq_ok_iff, Logged.outcome_of, orOSError_eq_ok_iff]
  constructor
  · rintro ⟨_, manifest, hmanifest, repoRoot, hroot, javaHome, hhome, result, hresult, ⟨⟩, harchive,
      head, hhead, -⟩
    obtain ⟨tools, htools, hsettings, hversions⟩ := exists_verifyRuntime_iff.mp ⟨result, hresult⟩
    obtain ⟨hjava, hjavac, hjavadoc, hjdeps⟩ := findTools_eq_ok_iff.mp htools
    exact ⟨repoRoot, javaHome, tools,
      ⟨⟨manifest, hmanifest⟩, hroot, hhome, hjava, hjavac, hjavadoc, hjdeps⟩, hsettings,
      hversions.1, hversions.2.1, hversions.2.2, obtainArchive_eq_ok_iff.mp harchive,
      exists_verifyHead_iff.mp ⟨head, hhead⟩⟩
  · rintro ⟨repoRoot, javaHome, tools, hready, hsettings, hjavac, hjavadoc, hjdeps, harchive, hhead⟩
    obtain ⟨manifest, hmanifest⟩ := hready.manifest
    have htools : findTools env javaHome = .ok tools := findTools_eq_ok_iff.mpr
      ⟨hready.java, hready.javac, hready.javadoc, hready.jdeps⟩
    obtain ⟨result, hresult⟩ := exists_verifyRuntime_iff.mpr
      ⟨tools, htools, hsettings, hjavac, hjavadoc, hjdeps⟩
    obtain ⟨head, hcommit⟩ := exists_verifyHead_iff.mpr hhead
    exact ⟨_, manifest, hmanifest, repoRoot, hready.root, javaHome, hready.home, result, hresult,
      (), obtainArchive_eq_ok_iff.mpr harchive, head, hcommit, rfl⟩

end RealityCore.Toolchain
