import RealityCore.Workflow.Parser
import RealityCore.Source.Patterns

/-!
# The reviewed workflow

The tree that the verification expects, the text of the workflow file, and the two checks of a
parsed tree: that it is exactly the expected one, and that its run lines hold no shell wrapper.
-/

namespace RealityCore.Workflow

open Outcome (bind_eq_ok_iff guard_eq_ok_iff)
open Python (Str Dict isSpace splitLines unlines)
open Regex (Pattern search)

/-- A string value. -/
def str (value : String) : Value := .scalar (.str value.toList)

/-- A truth value. -/
def bool (value : Bool) : Value := .scalar (.bool value)

/-- A dictionary value. -/
def dict (entries : List (String × Value)) : Value :=
  .map (entries.map fun entry => (entry.1.toList, entry.2))

/-- A step that runs some commands, one on each line. -/
def runStep (name : String) (commands : List String) : Value :=
  dict [("name", str name), ("run", .scalar (.str (unlines (commands.map String.toList))))]

/-- The steps of `_expected_workflow()`. -/
def expectedSteps : List Value := [
  dict [
    ("name", str "Check out source"),
    ("uses", str "actions/checkout@08eba0b27e820071cde6df949e0beb9ba4906955")],
  dict [
    ("name", str "Set up Java 17.0.20+8"),
    ("uses", str "actions/setup-java@c1e323688fd81a25caa38c78aa6df2d33d3e20d9"),
    ("with", dict [
      ("distribution", str "temurin"),
      ("java-version", str "17.0.20+8"),
      ("architecture", str "x64"),
      ("check-latest", bool false)])],
  dict [
    ("name", str "Set up Gradle 8.8"),
    ("uses", str "gradle/actions/setup-gradle@748248ddd2a24f49513d8f472f81c3a07d4d50e1"),
    ("with", dict [
      ("gradle-version", str "8.8")])],
  runStep "Verify exact toolchain and source head" [
    ("python3 scripts/verify_toolchain.py --manifest toolchain-manifest.json " ++
      "--download-archive")],
  runStep "Verify workflow and public source policy" [
    "python3 scripts/verify_ci_workflow.py",
    "python3 scripts/verify_dependency_metadata.py gradle/verification-metadata.xml",
    "python3 scripts/public_source_scan.py --repo-root . --tracked-only",
    "python3 scripts/test_public_source_scan.py",
    "python3 scripts/test_runtime_sbom.py"],
  runStep "Online strict clean check" [
    "./gradlew --dependency-verification=strict --no-daemon clean check"],
  runStep "Offline strict clean check" [
    "./gradlew --dependency-verification=strict --offline --no-daemon clean check"],
  runStep "Re-run the exact unit contract suite" [
    ("./gradlew --dependency-verification=strict --offline --no-daemon clean test " ++
      "--rerun-tasks")],
  runStep "Verify exact unit test report" [
    "python3 scripts/verify_test_report.py build/test-results/test --expected-tests 28"],
  runStep "Verify Javadoc" [
    "./gradlew --dependency-verification=strict --offline --no-daemon javadoc"],
  runStep "Verify Java 17 bytecode" [
    "python3 scripts/verify_bytecode.py build/classes/java/main --expected-major 61"],
  runStep "Verify jdeps" [
    "python3 scripts/verify_jdeps.py build/classes/java/main"],
  runStep "Stage Maven publication first pass" [
    ("./gradlew --dependency-verification=strict --offline --no-daemon clean jar " ++
      "sourcesJar javadocJar publishMavenJavaPublicationToStagingRepository"),
    "python3 scripts/verify_publication.py build/staging/repository",
    "python3 scripts/verify_reproducible_outputs.py --write ci-state/artifacts-first.json"],
  runStep "Stage Maven publication second pass" [
    ("./gradlew --dependency-verification=strict --offline --no-daemon clean jar " ++
      "sourcesJar javadocJar publishMavenJavaPublicationToStagingRepository"),
    "python3 scripts/verify_publication.py build/staging/repository",
    "python3 scripts/verify_reproducible_outputs.py --compare ci-state/artifacts-first.json"],
  runStep "Verify runtime SBOM first pass" [
    "./gradlew --dependency-verification=strict --offline --no-daemon clean runtimeSbom",
    "python3 scripts/verify_runtime_sbom.py build/reports/sbom/reality-core-runtime-sbom.json",
    "python3 scripts/verify_reproducible_sbom.py --write ci-state/sbom-first.json"],
  runStep "Verify runtime SBOM second pass" [
    "./gradlew --dependency-verification=strict --offline --no-daemon clean runtimeSbom",
    "python3 scripts/verify_runtime_sbom.py build/reports/sbom/reality-core-runtime-sbom.json",
    "python3 scripts/verify_reproducible_sbom.py --compare ci-state/sbom-first.json"]]

/-- `_expected_workflow()` -/
def expectedWorkflow : Value :=
  dict [("name", str "CI"),
    ("on", dict [("push", dict []), ("pull_request", dict [])]),
    ("permissions", dict [("contents", str "read")]),
    ("concurrency", dict [
      ("group",
        str "reality-core-$\x7b\x7b github.workflow \x7d\x7d-$\x7b\x7b github.ref \x7d\x7d"),
      ("cancel-in-progress", bool true)]),
    ("jobs", dict [("public-gate", dict [
      ("name", str "Public gate"),
      ("runs-on", str "ubuntu-24.04"),
      ("timeout-minutes", .scalar (.int 30)),
      ("steps", .list expectedSteps)])])]

/-- The lines of the reviewed file `ci.yml`. -/
def reviewedLines : List String := [
  "name: CI",
  "",
  "on:",
  "  push:",
  "  pull_request:",
  "",
  "permissions:",
  "  contents: read",
  "",
  "concurrency:",
  "  group: reality-core-$\x7b\x7b github.workflow \x7d\x7d-$\x7b\x7b github.ref \x7d\x7d",
  "  cancel-in-progress: true",
  "",
  "jobs:",
  "  public-gate:",
  "    name: Public gate",
  "    runs-on: ubuntu-24.04",
  "    timeout-minutes: 30",
  "    steps:",
  "      - name: Check out source",
  "        uses: actions/checkout@08eba0b27e820071cde6df949e0beb9ba4906955",
  "      - name: Set up Java 17.0.20+8",
  "        uses: actions/setup-java@c1e323688fd81a25caa38c78aa6df2d33d3e20d9",
  "        with:",
  "          distribution: temurin",
  "          java-version: 17.0.20+8",
  "          architecture: x64",
  "          check-latest: false",
  "      - name: Set up Gradle 8.8",
  "        uses: gradle/actions/setup-gradle@748248ddd2a24f49513d8f472f81c3a07d4d50e1",
  "        with:",
  "          gradle-version: 8.8",
  "",
  "      - name: Verify exact toolchain and source head",
  "        run: |",
  ("          python3 scripts/verify_toolchain.py --manifest toolchain-manifest.json " ++
    "--download-archive"),
  "",
  "      - name: Verify workflow and public source policy",
  "        run: |",
  "          python3 scripts/verify_ci_workflow.py",
  "          python3 scripts/verify_dependency_metadata.py gradle/verification-metadata.xml",
  "          python3 scripts/public_source_scan.py --repo-root . --tracked-only",
  "          python3 scripts/test_public_source_scan.py",
  "          python3 scripts/test_runtime_sbom.py",
  "",
  "      - name: Online strict clean check",
  "        run: |",
  "          ./gradlew --dependency-verification=strict --no-daemon clean check",
  "",
  "      - name: Offline strict clean check",
  "        run: |",
  "          ./gradlew --dependency-verification=strict --offline --no-daemon clean check",
  "",
  "      - name: Re-run the exact unit contract suite",
  "        run: |",
  ("          ./gradlew --dependency-verification=strict --offline --no-daemon clean test " ++
    "--rerun-tasks"),
  "",
  "      - name: Verify exact unit test report",
  "        run: |",
  "          python3 scripts/verify_test_report.py build/test-results/test --expected-tests 28",
  "",
  "      - name: Verify Javadoc",
  "        run: |",
  "          ./gradlew --dependency-verification=strict --offline --no-daemon javadoc",
  "",
  "      - name: Verify Java 17 bytecode",
  "        run: |",
  "          python3 scripts/verify_bytecode.py build/classes/java/main --expected-major 61",
  "",
  "      - name: Verify jdeps",
  "        run: |",
  "          python3 scripts/verify_jdeps.py build/classes/java/main",
  "",
  "      - name: Stage Maven publication first pass",
  "        run: |",
  ("          ./gradlew --dependency-verification=strict --offline --no-daemon clean jar " ++
    "sourcesJar javadocJar publishMavenJavaPublicationToStagingRepository"),
  "          python3 scripts/verify_publication.py build/staging/repository",
  "          python3 scripts/verify_reproducible_outputs.py --write ci-state/artifacts-first.json",
  "",
  "      - name: Stage Maven publication second pass",
  "        run: |",
  ("          ./gradlew --dependency-verification=strict --offline --no-daemon clean jar " ++
    "sourcesJar javadocJar publishMavenJavaPublicationToStagingRepository"),
  "          python3 scripts/verify_publication.py build/staging/repository",
  ("          python3 scripts/verify_reproducible_outputs.py --compare " ++
    "ci-state/artifacts-first.json"),
  "",
  "      - name: Verify runtime SBOM first pass",
  "        run: |",
  "          ./gradlew --dependency-verification=strict --offline --no-daemon clean runtimeSbom",
  ("          python3 scripts/verify_runtime_sbom.py " ++
    "build/reports/sbom/reality-core-runtime-sbom.json"),
  "          python3 scripts/verify_reproducible_sbom.py --write ci-state/sbom-first.json",
  "",
  "      - name: Verify runtime SBOM second pass",
  "        run: |",
  "          ./gradlew --dependency-verification=strict --offline --no-daemon clean runtimeSbom",
  ("          python3 scripts/verify_runtime_sbom.py " ++
    "build/reports/sbom/reality-core-runtime-sbom.json"),
  "          python3 scripts/verify_reproducible_sbom.py --compare ci-state/sbom-first.json"]

/-- The text of the reviewed file. -/
def reviewedText : Str := unlines (reviewedLines.map String.toList)

/-! ## The checks of a parsed tree -/

/-- `raise WorkflowError(f"{path} {problem}")` -/
def rejectAt (path : Str) (problem : String) : Result Unit :=
  .error (.workflowError (path ++ ' ' :: problem.toList))

mutual

/-- `_assert_exact(expected, actual, path)` -/
def assertExact : Value → Value → Str → Result Unit
  | .map expected, actual, path =>
    match actual with
    | .map actual =>
      if Dict.keys actual ≠ Dict.keys expected then rejectAt path "keys/order changed"
      else assertEntries expected actual path
    | _ => rejectAt path "keys/order changed"
  | .list expected, actual, path =>
    match actual with
    | .list actual =>
      if actual.length ≠ expected.length then rejectAt path "list length changed"
      else assertItems expected actual path 0
    | _ => rejectAt path "list length changed"
  | .scalar expected, actual, path =>
    match actual with
    | .scalar actual => if actual ≠ expected then rejectAt path "value changed" else .ok ()
    | _ => rejectAt path "value changed"

/-- The loop over the keys of an expected dictionary. -/
def assertEntries : List (Str × Value) → Dict Str Value → Str → Result Unit
  | [], _, _ => .ok ()
  | (key, expected) :: rest, actual, path =>
    match actual.get? key with
    | none => .error (.keyError key)
    | some value => do
      assertExact expected value (path ++ '.' :: key)
      assertEntries rest actual path

/-- The loop over the items of an expected list and of a list of the same length. -/
def assertItems : List Value → List Value → Str → ℕ → Result Unit
  | expected :: rest, actual :: others, path, index => do
    assertExact expected actual (path ++ '[' :: (Nat.toDigits 10 index ++ [']']))
    assertItems rest others path (index + 1)
  | _, _, _, _ => .ok ()

end

mutual

/-- `visit(value)`: the strings that end in a newline. -/
def runValues : Value → List Str
  | .map entries => runValuesOfEntries entries
  | .list items => runValuesOfItems items
  | .scalar (.str value) => if value.getLast? = some '\n' then [value] else []
  | .scalar _ => []

/-- The strings in the values of a dictionary. -/
def runValuesOfEntries : List (Str × Value) → List Str
  | [] => []
  | (_, value) :: rest => runValues value ++ runValuesOfEntries rest

/-- The strings in the items of a list. -/
def runValuesOfItems : List Value → List Str
  | [] => []
  | value :: rest => runValues value ++ runValuesOfItems rest

end

/-- The fragments that no run line may hold. -/
def unsafeFragments : List String := ["echo", "printf", "$(", "\x60", "<<", ";", "&&", "||"]

/-- `\b(?:env|alias|function|eval|xargs|bash|sh)\b` -/
def WRAPPER_RE (isAlnum : Char → Bool) : Pattern Char :=
  SourceScan.sequence [.wordBoundary (SourceScan.isWord isAlnum),
    .choice (["env", "alias", "function", "eval", "xargs", "bash", "sh"].map fun word =>
      .text word.toList),
    .wordBoundary (SourceScan.isWord isAlnum)]

/-- A run line that is refused; the parameter is `str.isalnum`, consulted beyond ASCII. -/
def isUnsafeLine (isAlnum : Char → Bool) (line : Str) : Bool :=
  line.isEmpty || (line.dropWhile isSpace).head? == some '#' ||
    unsafeFragments.any (fun fragment => decide (fragment.toList <:+: line)) ||
    (search (WRAPPER_RE isAlnum) line).isSome

/-- `_verify_run_lines(workflow)` -/
def verifyRunLines (isAlnum : Char → Bool) (workflow : Value) : Result Unit :=
  (runValues workflow).forM fun run =>
    let lines := splitLines run
    if lines = [] ∨ lines.any (isUnsafeLine isAlnum) then
      reject "run contains an unsafe shell wrapper or inactive logical line"
    else if lines.any fun line => line.getLast? == some '\\' then
      reject "run contains a line continuation"
    else .ok ()

/-- The checks of `verify_workflow(path)` on the text of the file. -/
def verifyText (isAlnum : Char → Bool) (text : Str) : Result Unit := do
  let parser ← Parser.init text
  let actual ← parser.parse
  assertExact expectedWorkflow actual "workflow".toList
  verifyRunLines isAlnum actual

end RealityCore.Workflow
