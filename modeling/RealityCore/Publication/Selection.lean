import RealityCore.Archive.StagedFile
import RealityCore.Publication.Pom

/-!
# The staged file that is verified

The publication is verified by a script of its own, with its own way to find the staged files. Its
patterns are written differently, but they have the same language as those of the script that hashes
the files, and the globs of both let every such name through.
-/

namespace RealityCore.Publication

open Archive (Extension stagedFile stagedName)
open Python (CodePoint PurePath Text asterisk glob globPattern isDigitPoint points slash)
open Regex (Pattern fullMatch letters wordsOver)

/-- `re.escape(EXPECTED_ARTIFACT)-0\.1\.0-[0-9]{8}\.[0-9]{6}-[0-9]+\.{extension}\Z` -/
def timestampedName (extension : Extension) : Pattern CodePoint :=
  .seq (.concat [.text (points EXPECTED_ARTIFACT), .text (points "-0.1.0-"),
    .times (.set isDigitPoint) 8, .text (points "."), .times (.set isDigitPoint) 6,
    .text (points "-"), .plus (.set isDigitPoint), .text (points "."), .text extension.text]) .atEnd

/-- `staging / EXPECTED_GROUP.replace(".", "/") / EXPECTED_ARTIFACT / EXPECTED_VERSION` -/
def versionDirectory (staging : PurePath) : PurePath :=
  ((staging.join ((points EXPECTED_GROUP).map fun c =>
    if c = CodePoint.ofChar '.' then slash else c)).join (points EXPECTED_ARTIFACT)).join
      (points EXPECTED_VERSION)

/-- `one(extension)` in `verify_publication(staging)` -/
def selectOne (listing : PurePath → List Text) (staging : PurePath) (extension : Extension) :
    Except Failure PurePath :=
  let candidates := ((glob listing (versionDirectory staging)
      (points "*." ++ extension.text)).filter fun path =>
        fullMatch (timestampedName extension) path.name).insertionSort (· ≤ ·)
  Outcome.only (.publicationError (points ("expected one timestamped staged " ++
    extension.format ++ " file"))) candidates

/-! ## The names -/

/-- The eight digits of the date, the six of the time and the number of the build. -/
def timestamps : Language CodePoint :=
  letters isDigitPoint ^ 8 * ({points "."} * (letters isDigitPoint ^ 6 *
    ({points "-"} * (letters isDigitPoint * wordsOver isDigitPoint))))

/-- The names of the staged files with an extension. -/
def stagedNames (extension : Extension) : Language CodePoint :=
  {points "reality-core-0.1.0-"} * (timestamps * {points "." ++ extension.text})

/-- The pattern of the hashing script matches the names of the staged files. -/
theorem fullMatch_stagedName_iff {extension : Extension} {name : Text} :
    fullMatch (stagedName extension) name = true ↔ name ∈ stagedNames extension := by
  have hspans : (stagedName extension).Spans _ := Regex.spans_concat
    (.cons (Regex.spans_text _) (.cons ((Regex.spans_set _).times 8) (.cons (Regex.spans_text _)
      (.cons ((Regex.spans_set _).times 6) (.cons (Regex.spans_text _)
        (.cons (Regex.spans_plus_set _) (.cons (Regex.spans_text _) .nil)))))))
  rw [hspans.fullMatch_iff]
  simp only [List.prod_cons, List.prod_nil, mul_one, stagedNames, timestamps, mul_assoc]

/-- The pattern of the verifying script matches the names of the staged files. -/
theorem fullMatch_timestampedName_iff {extension : Extension} {name : Text} :
    fullMatch (timestampedName extension) name = true ↔ name ∈ stagedNames extension := by
  have hspans : (Pattern.concat [.text (points EXPECTED_ARTIFACT), .text (points "-0.1.0-"),
      .times (.set isDigitPoint) 8, .text (points "."), .times (.set isDigitPoint) 6,
      .text (points "-"), .plus (.set isDigitPoint), .text (points "."),
      .text extension.text]).Spans _ := Regex.spans_concat
    (.cons (Regex.spans_text _) (.cons (Regex.spans_text _) (.cons ((Regex.spans_set _).times 8)
      (.cons (Regex.spans_text _) (.cons ((Regex.spans_set _).times 6) (.cons (Regex.spans_text _)
        (.cons (Regex.spans_plus_set _) (.cons (Regex.spans_text _)
          (.cons (Regex.spans_text _) .nil)))))))))
  have hfront : ({points EXPECTED_ARTIFACT} * {points "-0.1.0-"} : Language CodePoint) =
      {points "reality-core-0.1.0-"} := by
    rw [Python.singleton_mul_singleton]
    rfl
  rw [timestampedName, Regex.fullMatch_seq_atEnd, hspans.fullMatch_iff, stagedNames, timestamps,
    ← hfront, ← Python.singleton_mul_singleton (points ".")]
  simp only [List.prod_cons, List.prod_nil, mul_one, mul_assoc]

/-- The glob of the hashing script lets the names of the staged files through. -/
theorem fullMatch_glob_stagedName {extension : Extension} {name : Text}
    (h : name ∈ stagedNames extension) :
    fullMatch (globPattern (points "reality-core-0.1.0-*." ++ extension.text)) name = true := by
  have hfixed : points "reality-core-0.1.0-*." =
      points "reality-core-0.1.0-" ++ asterisk :: points "." := by decide +kernel
  rw [hfixed, List.append_assoc, List.cons_append,
    Python.fullMatch_globPattern_iff (by decide) (by cases extension <;> decide)]
  obtain ⟨front, hfront, rest, hrest, rfl⟩ := Language.mem_mul.mp h
  obtain ⟨stamp, -, back, hback, rfl⟩ := Language.mem_mul.mp hrest
  exact Language.append_mem_mul hfront (Language.append_mem_mul trivial hback)

/-- The glob of the verifying script lets the names of the staged files through. -/
theorem fullMatch_glob_timestampedName {extension : Extension} {name : Text}
    (h : name ∈ stagedNames extension) :
    fullMatch (globPattern (points "*." ++ extension.text)) name = true := by
  have hpattern : points "*." ++ extension.text =
      [] ++ asterisk :: (points "." ++ extension.text) := rfl
  rw [hpattern, Python.fullMatch_globPattern_iff (by decide) (by cases extension <;> decide)]
  obtain ⟨front, -, rest, hrest, rfl⟩ := Language.mem_mul.mp h
  obtain ⟨stamp, -, back, hback, rfl⟩ := Language.mem_mul.mp hrest
  rw [← List.append_assoc, ← List.nil_append (front ++ stamp ++ back)]
  exact Language.append_mem_mul rfl (Language.append_mem_mul trivial hback)

/-! ## The selection -/

/-- Both scripts look into one directory. -/
theorem versionDirectory_eq (root : PurePath) :
    versionDirectory (root.join (points "build/staging/repository")) = root.join (points
      "build/staging/repository/io/github/yu1sh/reality/reality-core/0.1.0-SNAPSHOT") := by
  have hjoin (path : PurePath) (text : Text) (hrelative : text.head? ≠ some slash) :
      path.join text = path ++ PurePath.components text := if_neg hrelative
  rw [versionDirectory, hjoin _ _ (by decide), hjoin _ _ (by decide), hjoin _ _ (by decide),
    hjoin _ _ (by decide), hjoin _ _ (by decide), List.append_assoc, List.append_assoc,
    List.append_assoc]
  congr 1

/-- What is left of the names of a directory, for the glob and the pattern of a script. -/
theorem perm_candidates {listing listing' : PurePath → List Text} {directory : PurePath}
    (extension : Extension) (h : (listing directory).Perm (listing' directory)) :
    ((glob listing directory (points "*." ++ extension.text)).filter fun path =>
        fullMatch (timestampedName extension) path.name).Perm
      ((glob listing' directory (points "reality-core-0.1.0-*." ++ extension.text)).filter
        fun path => fullMatch (stagedName extension) path.name) := by
  have hsame : fullMatch (timestampedName extension) = fullMatch (stagedName extension) := by
    funext name
    rw [Bool.eq_iff_iff, fullMatch_timestampedName_iff, fullMatch_stagedName_iff]
  rw [Python.filter_glob fun name hname => fullMatch_glob_timestampedName
      (fullMatch_timestampedName_iff.mp hname), Python.filter_glob fun name hname =>
      fullMatch_glob_stagedName (fullMatch_stagedName_iff.mp hname), hsame]
  exact (h.filter _).map _

/-- For any names in the staging directory, read in any order, both scripts refuse them or both
select the same path. -/
theorem selectOne_stagedFile (listing listing' : PurePath → List Text)
    (h : ∀ directory, (listing directory).Perm (listing' directory)) (root : PurePath)
    (extension : Extension) :
    (∃ path,
      selectOne listing (root.join (points "build/staging/repository")) extension = .ok path ∧
      stagedFile listing' root extension = .ok path) ∨
      ∃ failure failure',
        selectOne listing (root.join (points "build/staging/repository")) extension =
          .error failure ∧ stagedFile listing' root extension = .error failure' := by
  rw [selectOne, stagedFile, versionDirectory_eq]
  generalize root.join (points
    "build/staging/repository/io/github/yu1sh/reality/reality-core/0.1.0-SNAPSHOT") = directory
  have hperm := perm_candidates extension (h directory)
  have hsorted := (List.perm_insertionSort (· ≤ ·) _).trans
    (hperm.trans (List.perm_insertionSort (· ≤ ·) _).symm)
  rcases Outcome.only_of_perm hsorted _ _ with hpath | herror
  · exact .inl hpath
  · exact .inr ⟨_, _, herror⟩

/-- A directory with a staged POM, a checksum of it and an older file. -/
def stagedListing (_ : PurePath) : List Text :=
  [points "reality-core-0.1.0-20260102.030405-1.pom.sha256",
    points "reality-core-0.1.0-20260102.030405-1.pom", points "reality-core-0.0.9.pom"]

/-- Both scripts select the staged POM. -/
theorem selectOne_stagedFile_listing :
    ∃ path : PurePath, path.name = points "reality-core-0.1.0-20260102.030405-1.pom" ∧
      selectOne stagedListing (PurePath.join [points "repo"]
        (points "build/staging/repository")) .pom = .ok path ∧
      stagedFile (fun directory => (stagedListing directory).reverse) [points "repo"] .pom =
        .ok path := by
  have hselect : selectOne stagedListing (PurePath.join [points "repo"]
      (points "build/staging/repository")) .pom = .ok ([points "repo", points "build",
        points "staging", points "repository", points "io", points "github", points "yu1sh",
        points "reality", points "reality-core", points "0.1.0-SNAPSHOT",
        points "reality-core-0.1.0-20260102.030405-1.pom"]) := by decide
  have hreverse (directory : PurePath) :
      (stagedListing directory).Perm (stagedListing directory).reverse :=
    (List.reverse_perm _).symm
  rcases selectOne_stagedFile stagedListing _ hreverse [points "repo"] .pom with
    ⟨path, hverified, hstaged⟩ | ⟨failure, -, hverified, -⟩
  · obtain rfl := Except.ok.inj (hselect.symm.trans hverified)
    exact ⟨_, rfl, hselect, hstaged⟩
  · rw [hselect] at hverified
    cases hverified

end RealityCore.Publication
