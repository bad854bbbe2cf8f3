import RealityCore.Library.Outcome
import RealityCore.Library.XmlElement

/-!
# Test reports

A report directory holds JUnit files. Each is a `testsuite`, or a `testsuites` with suites
directly in it, and each suite declares what it holds. `verifyReport` compares the declarations
with the test cases directly in the suites and adds them up.
-/

namespace RealityCore.TestReport

open Python (Str Dict sorted)
open Xml (Element ParserFailure)

def MAX_REPORT_FILES : ℕ := 128

def MAX_REPORT_BYTES : ℕ := 8 * 1024 * 1024

def MAX_REPORT_DEPTH : ℕ := 16

/-- The digits that `int` reads at most. -/
def MAX_INT_DIGITS : ℕ := 4300

/-- What ends a verification without a result. -/
inductive Failure where
  | reportError (message : String)
  | valueError
  | osError
  | otherError
  deriving DecidableEq

/-- What the file system answers about a directory entry: no size is an `OSError`, and one of
`ET.parse` stands beside its `ParseError`. -/
structure ReportFile where
  name : Str
  isSymlink : Bool
  isFile : Bool
  size : Option ℕ
  parse : Except ParserFailure Element

/-- The report directory with its entries in any order. -/
structure ReportDirectory where
  isDir : Bool
  isSymlink : Bool
  entries : List ReportFile

mutual

/-- `_depth` -/
def depth : Element → ℕ → Except Failure ℕ
  | .mk _ _ _ children, current =>
    if current > MAX_REPORT_DEPTH then .error (.reportError "JUnit XML nesting is too deep")
    else childrenDepth children current none

/-- The maximum over the children, with a default where there are none. -/
def childrenDepth : List Element → ℕ → Option ℕ → Except Failure ℕ
  | [], current, deepest => .ok (deepest.getD current)
  | child :: rest, current, deepest =>
    match depth child (current + 1) with
    | .error failure => .error failure
    | .ok below => childrenDepth rest current (some (max (deepest.getD below) below))

end

/-- `int(value)` for decimal digits with the given values. -/
def intOfDigits (digits : List ℕ) : ℕ := digits.foldl (fun value digit => 10 * value + digit) 0

/-- `_integer`, for the values of the decimal characters. -/
def integer (decimal : Char → Option ℕ) (element : Element) (name : String) :
    Except Failure ℕ :=
  let missing : Failure :=
    .reportError ("JUnit suite has no non-negative integer " ++ name)
  match element.attrib.get? name.toList with
  | none => .error missing
  | some value =>
    if value = [] ∨ ¬value.all fun c => (decimal c).isSome then .error missing
    else if value.length > MAX_INT_DIGITS then .error .valueError
    else .ok (intOfDigits (value.filterMap decimal))

/-- The sums of a verification. -/
structure Totals where
  suites : ℕ
  tests : ℕ
  failures : ℕ
  errors : ℕ
  skipped : ℕ
  deriving DecidableEq

/-- The suites of a report, when its root is one or holds some. -/
def suiteElements (root : Element) : List Element :=
  if root.tag = "testsuite".toList then [root]
  else if root.tag = "testsuites".toList then root.children
  else []

/-- The test cases directly in a suite. -/
def cases (suite : Element) : List Element :=
  suite.children.filter fun child => child.tag = "testcase".toList

/-- The number of cases with such an element directly in them. -/
def casesWith (tag : String) (suite : Element) : ℕ :=
  (cases suite).countP fun case => case.children.any fun child => child.tag = tag.toList

/-- One round of the loop over the suites of a file. -/
def verifySuite (decimal : Char → Option ℕ) (name : Str) (totals : Totals) (suite : Element) :
    Except Failure Totals := do
  let declaredTests ← integer decimal suite "tests"
  let declaredFailures ← integer decimal suite "failures"
  let declaredErrors ← integer decimal suite "errors"
  let declaredSkipped ← integer decimal suite "skipped"
  if declaredTests ≠ (cases suite).length then
    .error (.reportError
      ("JUnit suite test declaration disagrees with testcases: " ++ String.ofList name))
  else if (declaredFailures, declaredErrors, declaredSkipped) ≠
      (casesWith "failure" suite, casesWith "error" suite, casesWith "skipped" suite) then
    .error (.reportError
      ("JUnit suite result declaration disagrees with testcases: " ++ String.ofList name))
  else
    .ok {
      suites := totals.suites + 1
      tests := totals.tests + declaredTests
      failures := totals.failures + declaredFailures
      errors := totals.errors + declaredErrors
      skipped := totals.skipped + declaredSkipped }

/-- `path.stat().st_size` -/
def fileSize (path : ReportFile) : Except Failure ℕ :=
  match path.size with
  | none => .error .osError
  | some size => .ok size

/-- Read a file: its root element. -/
def readReport (path : ReportFile) : Except Failure Element := do
  if path.isSymlink ∨ ¬path.isFile then
    .error (.reportError "JUnit report contains a symlink or non-file")
  else
    let size ← fileSize path
    if size > MAX_REPORT_BYTES then
      .error (.reportError "JUnit report is larger than the bounded limit")
    else
      match path.parse with
      | .error .parseError =>
        .error (.reportError ("invalid JUnit XML: " ++ String.ofList path.name))
      | .error .otherError => .error .otherError
      | .ok root => .ok root

/-- One round of the loop over the files. -/
def verifyFile (decimal : Char → Option ℕ) (totals : Totals) (path : ReportFile) :
    Except Failure Totals := do
  let root ← readReport path
  let _ ← depth root 0
  if suiteElements root = [] ∨ (suiteElements root).any (·.tag ≠ "testsuite".toList) then
    .error (.reportError "JUnit XML has an unsupported root structure")
  else (suiteElements root).foldlM (verifySuite decimal path.name) totals

/-- `sorted(directory.glob("*.xml"))` -/
def reportFiles (directory : ReportDirectory) : List ReportFile :=
  (directory.entries.filter fun path => ".xml".toList.isSuffixOf path.name).insertionSort
    fun path next => path.name ≤ next.name

/-- The message about the sums. -/
def unexpectedMessage (expectedTests : ℤ) (totals : Totals) : String :=
  "expected " ++ toString expectedTests ++ " passing tests, got tests=" ++ toString totals.tests ++
    " failures=" ++ toString totals.failures ++ " errors=" ++ toString totals.errors ++
    " skipped=" ++ toString totals.skipped

/-- `verify_report` -/
def verifyReport (decimal : Char → Option ℕ) (directory : ReportDirectory) (expectedTests : ℤ) :
    Except Failure Totals := do
  if expectedTests ≤ 0 then
    .error (.reportError "expected test count must be positive")
  else if ¬directory.isDir ∨ directory.isSymlink then
    .error (.reportError "JUnit report directory is missing or is a symlink")
  else if reportFiles directory = [] ∨ (reportFiles directory).length > MAX_REPORT_FILES then
    .error (.reportError "JUnit report file count is outside the bounded range")
  else
    let totals ← (reportFiles directory).foldlM (verifyFile decimal) ⟨0, 0, 0, 0, 0⟩
    if (totals.tests : ℤ) ≠ expectedTests ∨ totals.failures ≠ 0 ∨ totals.errors ≠ 0 ∨
        totals.skipped ≠ 0 then
      .error (.reportError (unexpectedMessage expectedTests totals))
    else .ok totals

end RealityCore.TestReport
