import RealityCore.Report.VerifyReport

/-!
# Test cases that are counted

A verified report directory has the expected number of test cases directly in its suites, and
none of these has a failure, an error or a skip directly in it. Elements elsewhere in the trees
are not looked at. So the directory holds the expected tests, all of them passing, exactly when
every case stands in a suite that is counted and every result in such a case.
-/

namespace RealityCore.TestReport

open Outcome (bind_eq_ok_iff guard_eq_ok_iff foldlM_eq_ok)
open Python (Str)
open Xml (Element)

mutual

/-- Each element of a tree, as the tags on the way to it and its own. -/
def tagPaths : Element → List (List Str)
  | .mk tag _ _ children => [tag] :: (tagPathsAll children).map (tag :: ·)

/-- The elements of several trees. -/
def tagPathsAll : List Element → List (List Str)
  | [] => []
  | child :: rest => tagPaths child ++ tagPathsAll rest

end

/-- An element with that tag. -/
def EndsIn (tag : String) (path : List Str) : Prop := path.getLast? = some tag.toList

instance (tag : String) : DecidablePred (EndsIn tag) := fun path =>
  inferInstanceAs (Decidable (path.getLast? = some tag.toList))

/-- The elements that say that a test did not pass. -/
def RESULT_TAGS : List String := ["failure", "error", "skipped"]

/-- The places of the test cases that are counted. -/
def casePaths : List (List Str) :=
  [["testsuite".toList, "testcase".toList],
    ["testsuites".toList, "testsuite".toList, "testcase".toList]]

/-- The root of a report that can be parsed. -/
def rootOf (path : ReportFile) : Option Element := path.parse.toOption

/-- The elements of the reports in a directory. -/
def elements (directory : ReportDirectory) : List (List Str) :=
  tagPathsAll ((reportFiles directory).filterMap rootOf)

/-- There are as many test cases as expected, and none of them failed, erred or was skipped. -/
def AllPass (directory : ReportDirectory) (expectedTests : ℤ) : Prop :=
  (elements directory).countP (EndsIn "testcase") = expectedTests ∧
    ∀ path ∈ elements directory, ∀ tag ∈ RESULT_TAGS, ¬EndsIn tag path

/-- Test cases stand where they are counted, and results directly in such cases. -/
def WellPlaced (directory : ReportDirectory) : Prop :=
  ∀ path ∈ elements directory, (EndsIn "testcase" path → path ∈ casePaths) ∧
    ∀ tag ∈ RESULT_TAGS, EndsIn tag path → path ∈ casePaths.map (· ++ [tag.toList])

/-- A report has the root that it is parsed to. -/
theorem rootOf_eq_some_iff {path : ReportFile} {root : Element} :
    rootOf path = some root ↔ path.parse = .ok root := by
  rw [rootOf]
  cases path.parse <;> simp [Except.toOption]

/-- The elements of several trees are those of each. -/
theorem tagPathsAll_eq_flatMap (trees : List Element) :
    tagPathsAll trees = trees.flatMap tagPaths := by
  induction trees with
  | nil => rfl
  | cons tree trees ih => rw [tagPathsAll, List.flatMap_cons, ih]

/-- A tree is its root and what is below it. -/
theorem tagPaths_eq (element : Element) :
    tagPaths element = [element.tag] :: (tagPathsAll element.children).map (element.tag :: ·) := by
  cases element
  rfl

/-- An element below the root is an element of a child. -/
theorem mem_tagPaths_cons {element : Element} {tag next : Str} {path : List Str} :
    tag :: next :: path ∈ tagPaths element ↔
      element.tag = tag ∧ ∃ child ∈ element.children, next :: path ∈ tagPaths child := by
  rw [tagPaths_eq, tagPathsAll_eq_flatMap]
  simp [and_comm, eq_comm]

/-- The tree with the tags of a path starts with an element of that tag. -/
theorem mem_tagPaths_singleton {element : Element} {tag : Str} :
    [tag] ∈ tagPaths element ↔ element.tag = tag := by
  rw [tagPaths_eq, tagPathsAll_eq_flatMap, List.mem_cons]
  constructor
  · rintro (heq | hbelow)
    · exact (List.singleton_inj.mp heq).symm
    · obtain ⟨path, hpath, heq⟩ := List.mem_map.mp hbelow
      obtain ⟨child, -, hchild⟩ := List.mem_flatMap.mp hpath
      rw [(List.cons.inj heq).2, tagPaths_eq] at hchild
      simp at hchild
  · rintro rfl
    exact .inl rfl

/-- Every element has a tag. -/
theorem ne_nil_of_mem_tagPathsAll {trees : List Element} {path : List Str}
    (h : path ∈ tagPathsAll trees) : path ≠ [] := by
  rw [tagPathsAll_eq_flatMap] at h
  obtain ⟨tree, -, htree⟩ := List.mem_flatMap.mp h
  rw [tagPaths_eq, List.mem_cons, List.mem_map] at htree
  rintro rfl
  simp at htree

/-- Below the root of a tree there are the elements of its children. -/
theorem countP_tagPaths (element : Element) (p : List Str → Bool)
    (hroot : p [element.tag] = false) :
    (tagPaths element).countP p =
      (tagPathsAll element.children).countP fun path => p (element.tag :: path) := by
  rw [tagPaths_eq, List.countP_cons_of_neg (by simp [hroot]), List.countP_map]
  rfl

/-- Several trees hold as many roots with a tag as there are trees with it. -/
theorem countP_singleton (trees : List Element) (tag : Str) :
    (tagPathsAll trees).countP (· = [tag]) = trees.countP fun tree => tree.tag = tag := by
  induction trees with
  | nil => rfl
  | cons tree trees ih =>
    have hbelow : ((tagPathsAll tree.children).map (tree.tag :: ·)).countP (· = [tag]) = 0 := by
      rw [List.countP_eq_zero]
      intro path hpath heq
      obtain ⟨rest, hrest, rfl⟩ := List.mem_map.mp hpath
      have hsingle := of_decide_eq_true heq
      exact ne_nil_of_mem_tagPathsAll hrest (List.cons.inj hsingle).2
    rw [tagPathsAll, List.countP_append, ih, tagPaths_eq, List.countP_cons, hbelow,
      List.countP_cons]
    simp [add_comm]

/-- A suite has as many cases as there are elements directly in it with their tag. -/
theorem length_cases (suite : Element) :
    (cases suite).length = (tagPathsAll suite.children).countP (· = ["testcase".toList]) := by
  rw [countP_singleton, cases, List.countP_eq_length_filter]

/-- The counted cases of several suites. -/
theorem countP_suites {suites : List Element}
    (h : ∀ suite ∈ suites, suite.tag = "testsuite".toList) :
    (tagPathsAll suites).countP (· = ["testsuite".toList, "testcase".toList]) =
      (suites.map fun suite => (cases suite).length).sum := by
  induction suites with
  | nil => rfl
  | cons suite suites ih =>
    obtain ⟨hsuite, hsuites⟩ := List.forall_mem_cons.mp h
    rw [tagPathsAll, List.countP_append, ih hsuites, List.map_cons, List.sum_cons, length_cases,
      countP_tagPaths suite _ (by simp), hsuite]
    simp only [List.cons.injEq, true_and]

/-- The places of counted cases below a suite. -/
theorem suite_mem_casePaths (path : List Str) :
    "testsuite".toList :: path ∈ casePaths ↔ path = ["testcase".toList] := by
  have hne : "testsuite".toList ≠ "testsuites".toList := by decide
  simp only [casePaths, List.mem_cons, List.cons.injEq, hne, List.not_mem_nil, true_and, false_and,
    or_false]

/-- The places of counted cases below a list of suites. -/
theorem suites_mem_casePaths (path : List Str) :
    "testsuites".toList :: path ∈ casePaths ↔
      path = ["testsuite".toList, "testcase".toList] := by
  have hne : "testsuites".toList ≠ "testsuite".toList := by decide
  simp only [casePaths, List.mem_cons, List.cons.injEq, hne, List.not_mem_nil, true_and, false_and,
    or_false, false_or]

/-- The root of a report with suites is a suite, or holds suites. -/
theorem suiteElements_cases {root : Element} (h : suiteElements root ≠ []) :
    (root.tag = "testsuite".toList ∧ suiteElements root = [root]) ∨
      (root.tag = "testsuites".toList ∧ suiteElements root = root.children) := by
  rw [suiteElements] at h ⊢
  by_cases hsuite : root.tag = "testsuite".toList
  · exact .inl ⟨hsuite, if_pos hsuite⟩
  · rw [if_neg hsuite] at h ⊢
    by_cases hsuites : root.tag = "testsuites".toList
    · exact .inr ⟨hsuites, if_pos hsuites⟩
    · exact absurd (if_neg hsuites) h

/-- A report whose suites are suites holds the cases of its suites where cases are counted. -/
theorem countP_casePaths {root : Element}
    (h : ∀ suite ∈ suiteElements root, suite.tag = "testsuite".toList)
    (hne : suiteElements root ≠ []) :
    (tagPaths root).countP (· ∈ casePaths) =
      ((suiteElements root).map fun suite => (cases suite).length).sum := by
  rcases suiteElements_cases hne with ⟨htag, heq⟩ | ⟨htag, heq⟩
  · rw [heq, List.map_singleton, List.sum_singleton, length_cases,
      countP_tagPaths root _ (by rw [htag]; decide), htag]
    simp only [suite_mem_casePaths]
  · rw [heq] at h ⊢
    rw [← countP_suites h, countP_tagPaths root _ (by rw [htag]; decide), htag]
    simp only [suites_mem_casePaths]

/-- An element directly in a counted case is a child of a case of a suite. -/
theorem exists_case_of_mem {root : Element} {tag : Str} {place : List Str}
    (hplace : place ∈ casePaths) (hmem : place ++ [tag] ∈ tagPaths root) :
    ∃ suite ∈ suiteElements root, ∃ case ∈ cases suite, ∃ child ∈ case.children,
      child.tag = tag := by
  have hcase : ∀ {suite : Element},
      (∃ case ∈ suite.children, ["testcase".toList, tag] ∈ tagPaths case) →
        ∃ case ∈ cases suite, ∃ child ∈ case.children, child.tag = tag := by
    rintro suite ⟨case, hcase, hbelow⟩
    obtain ⟨htag, child, hchild, hresult⟩ := mem_tagPaths_cons.mp hbelow
    exact ⟨case, List.mem_filter.mpr ⟨hcase, decide_eq_true htag⟩, child, hchild,
      mem_tagPaths_singleton.mp hresult⟩
  rw [casePaths, List.mem_cons, List.mem_singleton] at hplace
  rcases hplace with rfl | rfl
  · obtain ⟨htag, hbelow⟩ := mem_tagPaths_cons.mp hmem
    refine ⟨root, ?_, hcase hbelow⟩
    rw [suiteElements, if_pos htag]
    exact List.mem_singleton.mpr rfl
  · obtain ⟨htag, suite, hsuite, hbelow⟩ := mem_tagPaths_cons.mp hmem
    refine ⟨suite, ?_, hcase (mem_tagPaths_cons.mp hbelow).2⟩
    rwa [suiteElements, htag, if_neg (by decide), if_pos rfl]

/-- The sums of one more suite. -/
def addSuite (totals : Totals) (suite : Element) : Totals where
  suites := totals.suites + 1
  tests := totals.tests + (cases suite).length
  failures := totals.failures + casesWith "failure" suite
  errors := totals.errors + casesWith "error" suite
  skipped := totals.skipped + casesWith "skipped" suite

/-- A suite that is accepted adds its own counts. -/
theorem verifySuite_eq_ok {decimal : Char → Option ℕ} {name : Str} {totals result : Totals}
    {suite : Element} (h : verifySuite decimal name totals suite = .ok result) :
    result = addSuite totals suite := by
  simp only [verifySuite, bind_eq_ok_iff, guard_eq_ok_iff, Except.ok.injEq] at h
  obtain ⟨tests, -, failures, -, errors, -, skipped, -, htests, hresults, rfl⟩ := h
  simp only [ne_eq, not_not, Prod.mk.injEq] at htests hresults
  obtain ⟨rfl, rfl, rfl⟩ := hresults
  rw [addSuite, htests]

/-- The suites of a file that can be read. -/
def suitesOf (path : ReportFile) : List Element :=
  match path.parse with
  | .error _ => []
  | .ok root => suiteElements root

/-- A file whose suites are suites. -/
def HasSuites (path : ReportFile) : Prop :=
  ∃ root, path.parse = .ok root ∧ suiteElements root ≠ [] ∧
    ∀ suite ∈ suiteElements root, suite.tag = "testsuite".toList

/-- A file that is read has been parsed. -/
theorem parse_of_readReport {path : ReportFile} {root : Element}
    (h : readReport path = .ok root) : path.parse = .ok root := by
  simp only [readReport, guard_eq_ok_iff, bind_eq_ok_iff] at h
  obtain ⟨-, size, -, -, hparse⟩ := h
  rcases hpath : path.parse with (_ | _) | found <;> rw [hpath] at hparse <;> cases hparse
  rfl

/-- A file that is accepted has suites and adds their counts. -/
theorem verifyFile_eq_ok {decimal : Char → Option ℕ} {totals result : Totals} {path : ReportFile}
    (h : verifyFile decimal totals path = .ok result) :
    result = (suitesOf path).foldl addSuite totals ∧ HasSuites path := by
  simp only [verifyFile, bind_eq_ok_iff, guard_eq_ok_iff] at h
  obtain ⟨root, hread, _, -, hroot, hsuites⟩ := h
  have hparse := parse_of_readReport hread
  simp only [not_or, List.any_eq_true, decide_eq_true_eq, ne_eq, not_exists, not_and,
    not_not] at hroot
  refine ⟨?_, root, hparse, hroot.1, hroot.2⟩
  rw [suitesOf, hparse]
  exact (foldlM_eq_ok (P := fun _ => True)
    (fun _ _ _ hsuite => ⟨verifySuite_eq_ok hsuite, trivial⟩) hsuites).1

/-- The suites of a directory, in the order in which they are added up. -/
def suitesIn (directory : ReportDirectory) : List Element :=
  (reportFiles directory).flatMap suitesOf

/-- One of the sums grows by what each suite contributes. -/
theorem foldl_addSuite (sum : Totals → ℕ) (count : Element → ℕ)
    (hadd : ∀ totals suite, sum (addSuite totals suite) = sum totals + count suite)
    (suites : List Element) (totals : Totals) :
    sum (suites.foldl addSuite totals) = sum totals + (suites.map count).sum := by
  induction suites generalizing totals with
  | nil => rfl
  | cons suite suites ih =>
    rw [List.foldl_cons, ih, hadd, List.map_cons, List.sum_cons, Nat.add_assoc]

/-- The counts of a directory that is verified: the cases of its suites are as many as expected,
and none of them has a result directly in it. -/
theorem verifyReport_eq_ok {decimal : Char → Option ℕ} {directory : ReportDirectory}
    {expectedTests : ℤ} {totals : Totals}
    (h : verifyReport decimal directory expectedTests = .ok totals) :
    (∀ path ∈ reportFiles directory, HasSuites path) ∧
      (((suitesIn directory).map fun suite => (cases suite).length).sum : ℕ) = expectedTests ∧
        ∀ suite ∈ suitesIn directory, ∀ tag ∈ RESULT_TAGS, casesWith tag suite = 0 := by
  simp only [verifyReport, guard_eq_ok_iff, bind_eq_ok_iff] at h
  obtain ⟨-, -, -, sums, hfiles, hsums, -⟩ := h
  have hstep : ∀ totals path result, verifyFile decimal totals path = .ok result →
      result = (suitesOf path).foldl addSuite totals ∧ HasSuites path :=
    fun _ _ _ => verifyFile_eq_ok
  obtain ⟨hfold, hsuites⟩ := foldlM_eq_ok hstep hfiles
  have htotal : sums = (suitesIn directory).foldl addSuite ⟨0, 0, 0, 0, 0⟩ := by
    rw [hfold, suitesIn, List.foldl_flatMap]
  simp only [not_or, ne_eq, not_not] at hsums
  obtain ⟨htests, hfailures, herrors, hskipped⟩ := hsums
  rw [htotal, foldl_addSuite Totals.tests (fun suite => (cases suite).length) fun _ _ => rfl,
    Nat.zero_add] at htests
  rw [htotal, foldl_addSuite Totals.failures (casesWith "failure") fun _ _ => rfl,
    Nat.zero_add] at hfailures
  rw [htotal, foldl_addSuite Totals.errors (casesWith "error") fun _ _ => rfl,
    Nat.zero_add] at herrors
  rw [htotal, foldl_addSuite Totals.skipped (casesWith "skipped") fun _ _ => rfl,
    Nat.zero_add] at hskipped
  refine ⟨hsuites, htests, fun suite hsuite tag htag => ?_⟩
  have hzero : ((suitesIn directory).map (casesWith tag)).sum = 0 := by
    simp only [RESULT_TAGS, List.mem_cons, List.not_mem_nil, or_false] at htag
    rcases htag with rfl | rfl | rfl
    · exact hfailures
    · exact herrors
    · exact hskipped
  exact List.sum_eq_zero_iff_forall_eq_nat.mp hzero _ (List.mem_map_of_mem hsuite)

/-- Files with suites hold the cases of these suites where cases are counted. -/
theorem countP_files {files : List ReportFile} (h : ∀ path ∈ files, HasSuites path) :
    (tagPathsAll (files.filterMap rootOf)).countP (· ∈ casePaths) =
      ((files.flatMap suitesOf).map fun suite => (cases suite).length).sum := by
  induction files with
  | nil => rfl
  | cons path paths ih =>
    obtain ⟨⟨root, hparse, hne, hsuites⟩, hpaths⟩ := List.forall_mem_cons.mp h
    have hsuitesOf : suitesOf path = suiteElements root := by rw [suitesOf, hparse]
    rw [List.filterMap_cons_some (rootOf_eq_some_iff.mpr hparse), tagPathsAll,
      List.countP_append, ih hpaths, countP_casePaths hsuites hne, List.flatMap_cons,
      List.map_append, List.sum_append, hsuitesOf]

/-- No result stands directly in a case that is counted. -/
theorem notMem_elements {directory : ReportDirectory}
    (h : ∀ suite ∈ suitesIn directory, ∀ tag ∈ RESULT_TAGS, casesWith tag suite = 0)
    {tag : String} (htag : tag ∈ RESULT_TAGS) :
    ∀ path ∈ casePaths.map (· ++ [tag.toList]), path ∉ elements directory := by
  intro path hpath hmem
  obtain ⟨place, hplace, rfl⟩ := List.mem_map.mp hpath
  rw [elements, tagPathsAll_eq_flatMap] at hmem
  obtain ⟨root, hroot, hmem⟩ := List.mem_flatMap.mp hmem
  obtain ⟨file, hfile, hfound⟩ := List.mem_filterMap.mp hroot
  have hparse := rootOf_eq_some_iff.mp hfound
  obtain ⟨suite, hsuite, case, hcase, child, hchild, hresult⟩ := exists_case_of_mem hplace hmem
  have hin : suite ∈ suitesIn directory :=
    List.mem_flatMap.mpr ⟨file, hfile, by rwa [suitesOf, hparse]⟩
  have hzero := List.countP_eq_zero.mp (h suite hin tag htag) case hcase
  exact hzero (List.any_eq_true.mpr ⟨child, hchild, decide_eq_true hresult⟩)

/-- A count does not change with a weaker condition exactly when nothing more satisfies it. -/
theorem countP_eq_countP_iff {α : Type*} {p q : α → Bool} {l : List α}
    (h : ∀ a ∈ l, q a = true → p a = true) :
    l.countP p = l.countP q ↔ ∀ a ∈ l, p a = true → q a = true := by
  induction l with
  | nil => simp
  | cons a l ih =>
    obtain ⟨ha, hl⟩ := List.forall_mem_cons.mp h
    rw [List.countP_cons, List.countP_cons, List.forall_mem_cons, ← ih hl]
    have hle : l.countP q ≤ l.countP p := List.countP_mono_left hl
    by_cases hq : q a = true
    · simp [hq, ha hq]
    · by_cases hp : p a = true
      · simp [hq, hp]
        omega
      · simp [hq, hp]

/-- A verified directory holds the expected tests, all of them passing, exactly when its test
cases and their results stand where they are counted. -/
theorem verifyReport_allPass_iff {decimal : Char → Option ℕ} {directory : ReportDirectory}
    {expectedTests : ℤ} {totals : Totals}
    (h : verifyReport decimal directory expectedTests = .ok totals) :
    AllPass directory expectedTests ↔ WellPlaced directory := by
  obtain ⟨hsuites, hcases, hresults⟩ := verifyReport_eq_ok h
  have hends : ∀ path ∈ elements directory, decide (path ∈ casePaths) = true →
      decide (EndsIn "testcase" path) = true := by
    intro path _ hpath
    have hall : ∀ place ∈ casePaths, EndsIn "testcase" place := by decide
    exact decide_eq_true (hall path (of_decide_eq_true hpath))
  have hcount : (elements directory).countP (EndsIn "testcase") = expectedTests ↔
      ∀ path ∈ elements directory, EndsIn "testcase" path → path ∈ casePaths := by
    rw [← hcases, suitesIn, ← countP_files hsuites, Int.natCast_inj]
    have hiff := countP_eq_countP_iff hends
    simp only [decide_eq_true_eq] at hiff
    exact hiff
  have hplace : ∀ path ∈ elements directory, ∀ tag ∈ RESULT_TAGS,
      (¬EndsIn tag path ↔ (EndsIn tag path → path ∈ casePaths.map (· ++ [tag.toList]))) := by
    intro path hpath tag htag
    have hno := notMem_elements hresults htag path
    exact ⟨fun hnot hend => absurd hend hnot, fun himp hend => hno (himp hend) hpath⟩
  rw [AllPass, WellPlaced, hcount, ← forall₂_and]
  refine forall₂_congr fun path hpath => and_congr_right fun _ => ?_
  exact forall₂_congr fun tag htag => hplace path hpath tag htag

/-- The values of the ASCII digits. -/
def asciiDecimal (c : Char) : Option ℕ := if c.isDigit then some (c.toNat - '0'.toNat) else none

/-- A suite that declares one passing test. -/
def suiteOfOne (children : List Element) : Element :=
  .mk "testsuite".toList
    [("tests".toList, "1".toList), ("failures".toList, "0".toList), ("errors".toList, "0".toList),
      ("skipped".toList, "0".toList)] none children

/-- A test case. -/
def testcase (children : List Element) : Element := .mk "testcase".toList [] none children

/-- A directory with one report. -/
def directoryOf (root : Element) : ReportDirectory :=
  ⟨true, false, [⟨"TEST-a.xml".toList, false, true, some 512, .ok root⟩]⟩

/-- A report of one passing test holds it where it is counted. -/
theorem verifyReport_allPass_iff_case :
    AllPass (directoryOf (suiteOfOne [testcase []])) 1 ∧
      WellPlaced (directoryOf (suiteOfOne [testcase []])) := by
  have hverified : verifyReport asciiDecimal (directoryOf (suiteOfOne [testcase []])) 1 =
      .ok ⟨1, 1, 0, 0, 0⟩ := by decide
  have hplaced : WellPlaced (directoryOf (suiteOfOne [testcase []])) := by
    unfold WellPlaced
    decide
  exact ⟨(verifyReport_allPass_iff hverified).mpr hplaced, hplaced⟩

/-- A suite in a suite is not looked into: its failed test is neither counted nor reported. -/
theorem verifyReport_misses_nested_suite :
    verifyReport asciiDecimal (directoryOf (suiteOfOne [testcase [],
        suiteOfOne [testcase [.mk "failure".toList [] none []]]])) 1 = .ok ⟨1, 1, 0, 0, 0⟩ ∧
      (elements (directoryOf (suiteOfOne [testcase [],
        suiteOfOne [testcase [.mk "failure".toList [] none []]]]))).countP
          (EndsIn "testcase") = 2 ∧
        ¬AllPass (directoryOf (suiteOfOne [testcase [],
          suiteOfOne [testcase [.mk "failure".toList [] none []]]])) 1 := by
  refine ⟨by decide, by decide, fun h => ?_⟩
  exact absurd h.1 (by decide)

end RealityCore.TestReport
