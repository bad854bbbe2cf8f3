import RealityCore.Library.Replacement
import RealityCore.Toolchain.Manifest
import RealityCore.Workflow.ParseWorkflow

/-!
# The gate and its self tests

`verify_workflow` accepts a file only when the gate refuses each of the texts in which a fragment of
its text is replaced. A fragment that is not there would leave the text as it is, so an accepted
text holds all the fragments.
-/

namespace RealityCore.Workflow

open Outcome (bind_eq_ok_iff guard_eq_ok_iff forM_eq_ok_iff)
open Python (Bytes Dict Files Hasher Hook Json JsonLoads Node PurePath Replacement Str Text
  decodeUtf8 encodeUtf8 encodeUtf8_injective expectRefusal points)
open Toolchain (readManifest)

/-- A named change of the text. -/
structure Mutation where
  name : String
  old : String
  new : String

/-- `text.replace(old, new, 1)` -/
def Mutation.replacement (mutation : Mutation) : Replacement Char :=
  ⟨mutation.old.toList, mutation.new.toList⟩

/-- The mutations of `_negative_self_test`. -/
def mutations : List Mutation := [
  ⟨"add-key", "name: CI\n", "name: CI\nextra: true\n"⟩,
  ⟨"remove-key", "permissions:\n", ""⟩,
  ⟨"rename-key", "timeout-minutes:", "timeout:"⟩,
  ⟨"duplicate-key", "name: CI\n", "name: CI\nname: CI\n"⟩,
  ⟨"unknown-step-key", "name: Verify jdeps\n", "unknown: true\n        name: Verify jdeps\n"⟩,
  ⟨"action-tag", "actions/checkout@08eba0b27e820071cde6df949e0beb9ba4906955",
    "actions/checkout@v4"⟩,
  ⟨"java-version", "java-version: 17.0.20+8", "java-version: 17"⟩,
  ⟨"vendor", "distribution: temurin", "distribution: zulu"⟩,
  ⟨"archive-sha", "--download-archive", "--archive"⟩,
  ⟨"runtime-delete",
    ("python3 scripts/verify_runtime_sbom.py " ++
      "build/reports/sbom/reality-core-runtime-sbom.json\n"), ""⟩,
  ⟨"strict-delete", "--dependency-verification=strict", "--dependency-verification=off"⟩,
  ⟨"offline-order", "Stage Maven publication first pass", "Offline strict clean check"⟩,
  ⟨"test-count-delete",
    ("python3 scripts/verify_test_report.py build/test-results/test " ++
      "--expected-tests 28\n"), ""⟩,
  ⟨"jar-command", " clean jar sourcesJar", " clean check"⟩,
  ⟨"sbom-command", "clean runtimeSbom", "clean check"⟩,
  ⟨"staging-command", "publishMavenJavaPublicationToStagingRepository", "publishToMavenLocal"⟩,
  ⟨"pom-command", "python3 scripts/verify_publication.py build/staging/repository",
    "python3 scripts/verify_test_report.py build/test-results/test --expected-tests 28"⟩,
  ⟨"class-command", "verify_bytecode.py build/classes/java/main --expected-major 61",
    "verify_bytecode.py build/classes/java/main --expected-major 60"⟩,
  ⟨"jdeps-command", "verify_jdeps.py build/classes/java/main",
    "verify_jdeps.py build/classes/java/main --java-home /tmp"⟩,
  ⟨"quoted-placeholder", "--expected-tests 28", "--expected-tests '28'"⟩,
  ⟨"folded", "run: |", "run: >"⟩,
  ⟨"comment", "name: CI\n", "# comment\nname: CI\n"⟩,
  ⟨"wrapper", "python3 scripts/verify_ci_workflow.py",
    "bash -c python3 scripts/verify_ci_workflow.py"⟩]

/-- The checks of a text that is written to a file. -/
def checkText (isAlnum : Char → Bool) (text : Str) : Except GateFailure Unit :=
  (checkWorkflow isAlnum (.file (encodeUtf8 text))).map fun _ => ()

/-- `_negative_self_test(text)` -/
def negativeSelfTest (isAlnum : Char → Bool) (text : Str) : Except GateFailure ℕ := do
  mutations.forM fun mutation =>
    expectRefusal isWorkflowError
      (.assertionError ("negative mutation accepted: ".toList ++ mutation.name.toList))
      (checkText isAlnum (mutation.replacement.apply text))
  .ok mutations.length

/-! ## The mutations of the manifest -/

/-- What `is_file` and a read answer about the manifest, where links are followed. -/
inductive ManifestFile where
  | absent
  | unreadable
  | content (data : Bytes)

/-- A named change of the manifest: the value at the end of some keys. -/
structure ManifestMutation where
  name : String
  keys : List String
  last : String
  value : String

/-- The mutations of `_negative_manifest_self_test`. -/
def manifestMutations : List ManifestMutation := [
  ⟨"temurin-version", ["java"], "version", "17.0.21+9"⟩,
  ⟨"temurin-vendor", ["java"], "vendor", "Other Vendor"⟩,
  ⟨"archive-sha", ["java", "archive"], "sha256",
    "0000000000000000000000000000000000000000000000000000000000000000"⟩,
  ⟨"archive-url", ["java", "archive"], "url", "https://example.invalid/jdk.tar.gz"⟩,
  ⟨"gradle-version", ["gradle"], "version", "9.2.0"⟩]

/-- `dict(pairs)`, which is what `json.loads` makes of an object without a hook. -/
def dictOfPairs : Hook GateFailure := fun pairs =>
  .ok (.object (pairs.foldl (fun members pair => Dict.set members pair.1 pair.2) []))

/-- The line ends of a text that is read as one. -/
def universalNewlines : Str → Str
  | [] => []
  | '\r' :: '\n' :: rest => '\n' :: universalNewlines rest
  | '\r' :: rest => '\n' :: universalNewlines rest
  | c :: rest => c :: universalNewlines rest

/-- `target[last] = value` behind some keys, or nothing for a key that is not there or a target that
is no dictionary. -/
def setAt (last value : String) : List String → Json → Option Json
  | [], .object members =>
    some (.object (Dict.set members (points last) (.str (points value))))
  | key :: keys, .object members => do
    let held ← Dict.get? members (points key)
    let changed ← setAt last value keys held
    some (.object (Dict.set members (points key) changed))
  | _, _ => none

/-- A changed copy of a document. -/
def ManifestMutation.apply (mutation : ManifestMutation) : Json → Option Json :=
  setAt mutation.last mutation.value mutation.keys

/-- `_read_manifest` of a document that is written to a file. -/
def readsManifest (json : JsonLoads) (sha256 : Hasher 64) (document : Json) : Bool :=
  (readManifest json sha256 (fun _ => .file (encodeUtf8 document.dumpsInOrder)) []).isOk

/-- One mutation of the manifest. Each error of `_read_manifest` is a refusal. -/
def checkManifestMutation (json : JsonLoads) (sha256 : Hasher 64) (document : Json)
    (mutation : ManifestMutation) : Except GateFailure Unit :=
  match mutation.apply document with
  | none => .error (.uncaught "KeyError or TypeError")
  | some changed =>
    if readsManifest json sha256 changed then
      .error (.assertionError ("toolchain mutation accepted: ".toList ++ mutation.name.toList))
    else .ok ()

/-- `json.loads(manifest_path.read_text(encoding="utf-8"))` -/
def loadForMutations (json : JsonLoads) : ManifestFile → Except GateFailure Json
  | .absent | .unreadable =>
    lifting (reject "toolchain manifest cannot be loaded for mutation tests")
  | .content data =>
    match decodeUtf8 data with
    | none => .error (.uncaught "UnicodeDecodeError")
    | some text =>
      match json.loads dictOfPairs (universalNewlines text) with
      | .ok document => .ok document
      | .error .decodeError =>
        lifting (reject "toolchain manifest cannot be loaded for mutation tests")
      | .error (.hookError failure) => .error failure
      | .error .otherError => .error (.uncaught "ValueError or RecursionError")

/-- `_negative_manifest_self_test(manifest_path)` -/
def negativeManifestSelfTest (json : JsonLoads) (sha256 : Hasher 64) (manifest : ManifestFile) :
    Except GateFailure ℕ := do
  let document ← loadForMutations json manifest
  manifestMutations.forM (checkManifestMutation json sha256 document)
  .ok manifestMutations.length

/-! ## The gate -/

/-- `path.resolve().parents[2] / "toolchain-manifest.json"` -/
def manifestPath (resolved : PurePath) : Except GateFailure PurePath :=
  if resolved.length < 3 then .error (.uncaught "IndexError")
  else .ok (resolved.parent.parent.parent ++ [points "toolchain-manifest.json"])

/-- A text without a run of digits that is too long for `int`. -/
def WithinDigits (text : Str) : Prop :=
  ∀ run, run <:+: text → IsDigits run → run.length ≤ Python.maxStrDigits

/-- A short text has no run of digits that is too long. -/
theorem withinDigits_of_length {text : Str} (h : text.length ≤ Python.maxStrDigits) :
    WithinDigits text :=
  fun _ hrun _ => hrun.length_le.trans h

/-- What the script reads: the file of the workflow, and the manifest. The model converts digits
without a limit, so neither the text of the workflow nor one that is made of it by a mutation has
more of them in a run than `int` takes. -/
structure Gate where
  isAlnum : Char → Bool
  json : JsonLoads
  sha256 : Hasher 64
  workflow : Node
  withinDigits : ∀ text, workflow = .file (encodeUtf8 text) →
    WithinDigits text ∧ ∀ mutation ∈ mutations, WithinDigits (mutation.replacement.apply text)
  resolved : PurePath
  manifests : PurePath → ManifestFile

/-- `verify_workflow(path)` -/
def verifyWorkflow (gate : Gate) : Except GateFailure ℕ := do
  let text ← checkWorkflow gate.isAlnum gate.workflow
  let count ← negativeSelfTest gate.isAlnum text
  let path ← manifestPath gate.resolved
  match gate.manifests path with
  | .absent => .ok count
  | manifest => do
    let further ← negativeManifestSelfTest gate.json gate.sha256 manifest
    .ok (count + further)

/-- `except (OSError, WorkflowError, AssertionError)` -/
def isCaught : GateFailure → Bool
  | .failure (.workflowError _) | .assertionError _ | .osError => true
  | _ => false

/-- `main(argv)`, for the path of a workflow. -/
def main (gate : Gate) : Except GateFailure ℕ :=
  match verifyWorkflow gate with
  | .ok _ => .ok 0
  | .error failure => if isCaught failure then .ok 1 else .error failure

/-! ## What the gate accepts -/

/-- A manifest whose mutations are all refused. -/
def ManifestRefuses (json : JsonLoads) (sha256 : Hasher 64) (manifest : ManifestFile) : Prop :=
  ∃ document, loadForMutations json manifest = .ok document ∧
    ∀ mutation ∈ manifestMutations, ∃ changed, mutation.apply document = some changed ∧
      ¬readsManifest json sha256 changed

/-- The texts that are accepted are those that pass the checks. -/
theorem checkText_eq_ok_iff {isAlnum : Char → Bool} (text : Str) :
    checkText isAlnum text = .ok () ↔ Passes isAlnum text := by
  rw [checkText, Outcome.map_eq_ok_iff]
  constructor
  · rintro ⟨found, hfound, -⟩
    obtain ⟨hdata, hpasses⟩ := checkWorkflow_eq_ok_iff.mp hfound
    exact encodeUtf8_injective (Node.file.inj hdata) ▸ hpasses
  · intro hpasses
    exact ⟨text, checkWorkflow_eq_ok_iff.mpr ⟨rfl, hpasses⟩, rfl⟩

/-- A text that is not accepted is refused with a `WorkflowError`. -/
theorem checkText_eq_error {isAlnum : Char → Bool} (text : Str) (e : GateFailure)
    (h : checkText isAlnum text = .error e) : isWorkflowError e = true := by
  rw [checkText] at h
  cases hcheck : checkWorkflow isAlnum (.file (encodeUtf8 text)) with
  | ok found =>
    rw [hcheck] at h
    cases h
  | error failure =>
    rw [hcheck] at h
    obtain rfl := Except.error.inj h
    exact checkWorkflow_eq_error hcheck

/-- A text is refused with a `WorkflowError` exactly when it does not pass. -/
theorem checkText_refuses_iff {isAlnum : Char → Bool} (text : Str) :
    (∃ error, checkText isAlnum text = .error error ∧ isWorkflowError error = true) ↔
      ¬Passes isAlnum text := by
  rw [← checkText_eq_ok_iff]
  cases hcheck : checkText isAlnum text with
  | ok => simp
  | error failure => simp [checkText_eq_error text failure hcheck]

/-- The self test of an accepted text passes when each mutation breaks it. -/
theorem negativeSelfTest_eq_ok_iff {isAlnum : Char → Bool} {text : Str} {count : ℕ}
    (h : Passes isAlnum text) :
    negativeSelfTest isAlnum text = .ok count ↔ count = mutations.length ∧
      ∀ mutation ∈ mutations, mutation.replacement.Breaks (Passes isAlnum) text := by
  rw [negativeSelfTest, bind_eq_ok_iff]
  constructor
  · rintro ⟨⟨⟩, hmutations, hcount⟩
    exact ⟨(Except.ok.inj hcount).symm,
      (Python.forM_expectRefusal_iff checkText_refuses_iff h).mp hmutations⟩
  · rintro ⟨rfl, hmutations⟩
    exact ⟨(), (Python.forM_expectRefusal_iff checkText_refuses_iff h).mpr
      hmutations, rfl⟩

/-- The self test of a manifest passes when each mutation of its document is refused. -/
theorem negativeManifestSelfTest_eq_ok_iff {json : JsonLoads} {sha256 : Hasher 64}
    {manifest : ManifestFile} {count : ℕ} :
    negativeManifestSelfTest json sha256 manifest = .ok count ↔
      count = manifestMutations.length ∧ ManifestRefuses json sha256 manifest := by
  have hround (document : Json) (mutation : ManifestMutation) :
      checkManifestMutation json sha256 document mutation = .ok () ↔
        ∃ changed, mutation.apply document = some changed ∧
          ¬readsManifest json sha256 changed := by
    rw [checkManifestMutation]
    cases mutation.apply document with
    | none => simp
    | some changed =>
      dsimp only
      rw [guard_eq_ok_iff]
      constructor
      · rintro ⟨hrefused, -⟩
        exact ⟨changed, rfl, hrefused⟩
      · rintro ⟨_, ⟨⟩, hrefused⟩
        exact ⟨hrefused, rfl⟩
  rw [negativeManifestSelfTest, bind_eq_ok_iff]
  constructor
  · rintro ⟨document, hload, hrest⟩
    obtain ⟨⟨⟩, hmutations, hcount⟩ := bind_eq_ok_iff.mp hrest
    exact ⟨(Except.ok.inj hcount).symm, document, hload, fun mutation hmutation =>
      (hround document mutation).mp (forM_eq_ok_iff.mp hmutations mutation hmutation)⟩
  · rintro ⟨rfl, document, hload, hmutations⟩
    exact ⟨document, hload, bind_eq_ok_iff.mpr ⟨(), forM_eq_ok_iff.mpr fun mutation hmutation =>
      (hround document mutation).mpr (hmutations mutation hmutation), rfl⟩⟩

/-- The status is zero exactly when the file is the encoding of a text that passes the checks, that
holds each fragment of the self test, and that is refused with any first one of them replaced, and
the manifest, if there is one, is refused with any of its values changed. -/
theorem main_eq_zero_iff (gate : Gate) :
    main gate = .ok 0 ↔ ∃ text, gate.workflow = .file (encodeUtf8 text) ∧
      Passes gate.isAlnum text ∧
      (∀ mutation ∈ mutations, mutation.replacement.Breaks (Passes gate.isAlnum) text) ∧
      ∃ path, manifestPath gate.resolved = .ok path ∧ (gate.manifests path ≠ .absent →
        ManifestRefuses gate.json gate.sha256 (gate.manifests path)) := by
  have hstatus : main gate = .ok 0 ↔ ∃ count, verifyWorkflow gate = .ok count := by
    rw [main]
    cases verifyWorkflow gate with
    | ok count => simp
    | error failure => cases hcaught : isCaught failure <;> simp [hcaught]
  have hmanifest (path : PurePath) (count : ℕ) : (∃ total, (match gate.manifests path with
      | .absent => .ok count
      | manifest => do
        let further ← negativeManifestSelfTest gate.json gate.sha256 manifest
        .ok (count + further) : Except GateFailure ℕ) = .ok total) ↔
      (gate.manifests path ≠ .absent →
        ManifestRefuses gate.json gate.sha256 (gate.manifests path)) := by
    cases gate.manifests path <;> simp [bind_eq_ok_iff, negativeManifestSelfTest_eq_ok_iff]
  rw [hstatus]
  constructor
  · rintro ⟨total, htotal⟩
    obtain ⟨text, htext, hrest⟩ := bind_eq_ok_iff.mp htotal
    obtain ⟨count, hcount, hrest⟩ := bind_eq_ok_iff.mp hrest
    obtain ⟨path, hpath, hrest⟩ := bind_eq_ok_iff.mp hrest
    obtain ⟨hfile, hpasses⟩ := checkWorkflow_eq_ok_iff.mp htext
    exact ⟨text, hfile, hpasses, ((negativeSelfTest_eq_ok_iff hpasses).mp hcount).2, path, hpath,
      (hmanifest path count).mp ⟨total, hrest⟩⟩
  · rintro ⟨text, hfile, hpasses, hmutations, path, hpath, hrefuses⟩
    obtain ⟨total, htotal⟩ := (hmanifest path mutations.length).mpr hrefuses
    exact ⟨total, bind_eq_ok_iff.mpr ⟨text, checkWorkflow_eq_ok_iff.mpr ⟨hfile, hpasses⟩,
      bind_eq_ok_iff.mpr ⟨_, (negativeSelfTest_eq_ok_iff hpasses).mpr ⟨rfl, hmutations⟩,
        bind_eq_ok_iff.mpr ⟨path, hpath, htotal⟩⟩⟩⟩

/-- A workflow with nothing but its name. -/
def nameText : Str := "name: CI\n".toList

/-- A workflow with nothing but its name, beside which there is no manifest. -/
def nameGate : Gate where
  isAlnum _ := false
  json := .ofDocument [] (.object [])
  sha256 := .ofNumber 64 List.length
  workflow := .file (encodeUtf8 nameText)
  withinDigits text htext := by
    obtain rfl := encodeUtf8_injective (Node.file.inj htext)
    have hnew : ∀ mutation ∈ mutations, mutation.replacement.new.length ≤ 100 := by
      decide +kernel
    have hlength : nameText.length = 9 := by decide
    refine ⟨withinDigits_of_length ?_, fun mutation hmutation =>
      withinDigits_of_length ((mutation.replacement.length_apply_le _).trans ?_)⟩
    · rw [hlength, Python.maxStrDigits]
      omega
    · have hshort := hnew mutation hmutation
      rw [hlength, Python.maxStrDigits]
      omega
  resolved := [points "repo", points ".github", points "workflows", points "ci.yml"]
  manifests _ := .absent

/-- A workflow without permissions has no fragment for one of the mutations. -/
theorem main_eq_zero_iff_nameGate : main nameGate ≠ .ok 0 := by
  refine (main_eq_zero_iff nameGate).not.mpr ?_
  rintro ⟨text, hfile, -, hmutations, -⟩
  obtain rfl := encodeUtf8_injective (Node.file.inj hfile)
  obtain ⟨before, after, hfirst, -⟩ :=
    hmutations ⟨"remove-key", "permissions:\n", ""⟩ (.tail _ (.head _))
  have hlength : nameText.length = (before ++ "permissions:\n".toList ++ after).length :=
    congrArg List.length hfirst.eq
  have hold : "permissions:\n".toList.length = 13 := by decide
  have hname : nameText.length = 9 := by decide
  rw [List.length_append, List.length_append, hold, hname] at hlength
  omega

end RealityCore.Workflow
