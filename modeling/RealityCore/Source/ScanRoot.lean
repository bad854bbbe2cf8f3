import RealityCore.Source.TrackedPaths

/-!
# Scan roots in a git worktree

A scan root is the top level of a worktree or a directory below it. What the scan makes of it
depends on the two answers of git: the top level that it shows, and the paths that it lists for the
prefix of the root. The scan returns exactly when the listed paths are admitted paths below this
prefix, at least one of them and not too many.
-/

namespace RealityCore.SourceScan

open Python (Str Bytes Text points ofStr ofStr_append ofStr_injective fsencode? encodeUtf8
  decodeUtf8 decodeUtf8_encodeUtf8 encodeUtf8_of_decodeUtf8 sorted strip)
open Outcome (bind_eq_ok_iff bind_eq_error_iff mapM_eq_ok_iff guard_eq_ok_iff
  exists_of_forall₂_right map_eq_map_of_forall₂)

/-- A process that reports success, within the bounds on what it prints. -/
structure Process.Succeeds (process : Process) : Prop where
  output : process.output.length ≤ MAX_GIT_OUTPUT_BYTES
  stderr : process.stderr.length ≤ MAX_SUBPROCESS_OUTPUT_BYTES
  returnCode : process.returnCode = 0

/-- The relative path of a directory below another, as the scan writes it. -/
def prefixText (below : List Text) : Text :=
  if below = [] then points "." else [separator].intercalate below

/-- What the paths of files below a directory start with. -/
def stemText (below : List Text) : Text :=
  if below = [] then [] else [separator].intercalate below ++ [separator]

/-- A scan root in a worktree: the directories `below` lead to it from the top level. The entries
are the paths of the index, relative to the top level; an unmerged path is there several times. -/
structure ScanRoot (env : Environment) (root : Text) where
  location : ResolvedPath
  top : ResolvedPath
  below : List Text
  parts_eq : location.parts = top.parts ++ below
  resolves : env.resolve root = some location
  stem : Bytes
  stem_eq : fsencode? (stemText below) = some stem
  entries : List Bytes
  entries_path : ∀ raw ∈ entries, raw ≠ [] ∧ 0 ∉ raw ∧ ¬encodeUtf8 "./".toList <+: raw

/-- The octets of a path in a directory with this prefix. -/
def spell (directory name : Str) : Bytes := encodeUtf8 (directory ++ '/' :: name)

namespace ScanRoot

variable {env : Environment} {root : Text} (w : ScanRoot env root)

/-- The tracked files below the root. -/
def filesBelow : List Bytes := (w.entries.filter w.stem.isPrefixOf).dedup

/-- The path of a file relative to the root, when it is a text. -/
def relativeName (raw : Bytes) : Option Str := decodeUtf8 (raw.drop w.stem.length)

/-- The path of a file below the root, from the path relative to the root. -/
def fileAt (name : Str) : Bytes := w.stem ++ encodeUtf8 name

/-- The reasons to refuse a root: a path that fails its check, or too few or too many files. -/
def Due : Prop :=
  (∃ raw ∈ w.filesBelow, ∀ name, w.relativeName raw = some name → checkPath name ≠ .ok ()) ∨
    w.filesBelow = [] ∨ MAX_FILES < w.filesBelow.length

/-- The enumeration returns the sorted relative paths, and is refused only when that is due. -/
def Enumerates : Prop :=
  (¬w.Due → trackedRelativePaths env root = .ok (sorted (w.filesBelow.filterMap w.relativeName))) ∧
    (w.Due → ∃ message, trackedRelativePaths env root = .error (.scanError message))

/-- Git shows this text for the top level. -/
def ShowsText (text : Str) : Prop :=
  ∃ process, env.run SHOW_TOPLEVEL w.location = some process ∧ process.Succeeds ∧
    decodeUtf8 process.output = some text

/-- Git shows the text of a path, but for white space on its sides. -/
def Shows (shown : ResolvedPath) : Prop :=
  ∃ text, w.ShowsText text ∧ env.resolve (ofStr (strip text)) = some shown

/-- Git shows a text that is, without the white space on its sides, no path. -/
def ShowsNoPath : Prop := ∃ text, w.ShowsText text ∧ env.resolve (ofStr (strip text)) = none

/-- Below the top level that it shows, git lists these paths for the prefix of the root. -/
def Lists (pre : Text) (listed : List Bytes) : Prop :=
  ∃ shown process, w.Shows shown ∧ relativeTo w.location shown = some pre ∧
    env.run (listFiles pre) shown = some process ∧ process.Succeeds ∧
      (process.output.splitOn 0).filter (· ≠ []) = listed

/-- Git lists admitted paths below the prefix, at least one and not too many. -/
def ListsAdmitted : Prop :=
  ∃ directory, ∃ names : List Str, w.Lists (ofStr directory) (names.map (spell directory)) ∧
    names ≠ [] ∧ names.length ≤ MAX_FILES ∧ ∀ name ∈ names, checkPath name = .ok ()

/-- Git lists the tracked files below the root, each of them once, below the prefix. -/
def Covered : Prop :=
  ∃ directory, ∃ names : List Str, w.Lists (ofStr directory) (names.map (spell directory)) ∧
    (names.map w.fileAt).Perm w.filesBelow

end ScanRoot

/-- A command is read exactly when its process succeeds. -/
theorem runGit_eq_ok_iff {env : Environment} {command : List Text} {cwd : ResolvedPath}
    {output : Bytes} : runGit env command cwd = .ok output ↔
      ∃ process, env.run command cwd = some process ∧ process.Succeeds ∧
        process.output = output := by
  cases hrun : env.run command cwd with
  | none => simp [runGit, hrun]
  | some process =>
    simp only [runGit, hrun, Option.some.injEq, exists_eq_left', guard_eq_ok_iff, Except.ok.injEq,
      not_or, not_lt, not_not]
    constructor
    · rintro ⟨houtput, ⟨hstderr, hcode⟩, rfl⟩
      exact ⟨⟨houtput, hstderr, hcode⟩, rfl⟩
    · rintro ⟨hok, rfl⟩
      exact ⟨hok.output, ⟨hok.stderr, hok.returnCode⟩, rfl⟩

/-- A command that is not read is refused with a `ScanError`. -/
theorem runGit_error {env : Environment} {command : List Text} {cwd : ResolvedPath}
    {failure : Failure} (h : runGit env command cwd = .error failure) :
    failure ≠ .osError := by
  rw [runGit] at h
  split at h
  · cases h
    exact Failure.noConfusion
  · split_ifs at h <;> cases h <;> exact Failure.noConfusion

/-- Components of a resolved path are not empty, so neither is a prefix made of them. -/
theorem relativeTo_ne_nil {path top : ResolvedPath} {pre : Text}
    (h : relativeTo path top = some pre) : pre ≠ [] := by
  rw [relativeTo, Option.ite_none_right_eq_some] at h
  obtain ⟨-, h⟩ := h
  split at h
  · cases h
    decide
  · next part rest hrest =>
    cases h
    have hmem : part ∈ path.parts :=
      (List.drop_suffix _ _).subset (hrest ▸ List.mem_cons_self)
    have hpart : part ≠ [] := (path.resolved part hmem).1
    cases rest <;> simp [List.intercalate, hpart]

/-- A text that starts with a prefix and a separator is a path in the directory of the prefix. -/
theorem exists_of_prefix_ofStr {pre : Text} {text : Str}
    (h : pre ++ [separator] <+: ofStr text) :
    ∃ directory name, pre = ofStr directory ∧ text = directory ++ '/' :: name := by
  obtain ⟨rest, hrest⟩ := h
  obtain ⟨front, name, rfl, hfront, -⟩ := List.map_eq_append_iff.mp hrest.symm
  obtain ⟨directory, mark, rfl, rfl, hmark⟩ := List.map_eq_append_iff.mp hfront
  obtain ⟨c, rfl, hc⟩ := List.map_eq_singleton_iff.mp hmark
  obtain rfl : c = '/' := Python.CodePoint.ofChar_injective hc
  exact ⟨directory, name, rfl, by simp⟩

/-- Behind the prefix and a separator stands the name. -/
theorem drop_directory (directory name : Str) :
    (directory ++ '/' :: name).drop ((ofStr directory).length + 1) = name := by
  rw [← List.singleton_append, ← List.append_assoc]
  exact List.drop_left' (by simp [ofStr])

/-- A listed path is kept when it is an admitted path in the directory of the prefix. -/
theorem relativePath_eq_ok_iff {pre : Text} {raw : Bytes} {name : Str} (hpre : pre ≠ []) :
    relativePath pre raw = .ok name ↔
      ∃ directory, pre = ofStr directory ∧ raw = spell directory name ∧
        checkPath name = .ok () := by
  constructor
  · intro h
    cases htext : decodeUtf8 raw with
    | none => simp [relativePath, htext] at h
    | some text =>
      simp only [relativePath, htext, hpre, ne_eq, not_false_eq_true, true_and, if_true] at h
      obtain ⟨hkept, h⟩ := guard_eq_ok_iff.mp h
      obtain ⟨directory, rest, rfl, rfl⟩ :=
        exists_of_prefix_ofStr (not_not.mp (not_or.mp hkept).1)
      rw [drop_directory] at h
      cases hcheck : checkPath rest with
      | error message => simp [hcheck] at h
      | ok _ =>
        rw [hcheck] at h
        cases h
        exact ⟨directory, rfl, (encodeUtf8_of_decodeUtf8 htext).symm, hcheck⟩
  · rintro ⟨directory, rfl, rfl, hcheck⟩
    have htext : decodeUtf8 (spell directory name) = some (directory ++ '/' :: name) :=
      decodeUtf8_encodeUtf8 _
    have hstart : ofStr directory ++ [separator] <+: ofStr (directory ++ '/' :: name) :=
      ⟨ofStr name, by rw [ofStr_append, List.append_assoc]; rfl⟩
    simp [relativePath, htext, hpre, hstart, drop_directory, ne_nil_of_checkPath hcheck, hcheck]

/-- Listed paths are kept one by one when they are admitted paths in the directory of the prefix. -/
theorem forall₂_relativePath_iff {pre : Text} {listed : List Bytes} {names : List Str}
    (hpre : pre ≠ []) (hnames : names ≠ []) :
    List.Forall₂ (fun raw name => relativePath pre raw = .ok name) listed names ↔
      ∃ directory, pre = ofStr directory ∧ listed = names.map (spell directory) ∧
        ∀ name ∈ names, checkPath name = .ok () := by
  simp only [relativePath_eq_ok_iff hpre]
  constructor
  · intro h
    obtain ⟨first, hfirst⟩ := List.exists_mem_of_ne_nil names hnames
    obtain ⟨-, -, directory, rfl, -⟩ := exists_of_forall₂_right h hfirst
    refine ⟨directory, rfl, ?_, fun name hname => ?_⟩
    · rw [← List.map_id listed]
      refine map_eq_map_of_forall₂ h ?_
      rintro raw name ⟨other, hother, rfl, -⟩
      rw [ofStr_injective hother, id]
    · obtain ⟨-, -, -, -, -, hcheck⟩ := exists_of_forall₂_right h hname
      exact hcheck
  · rintro ⟨directory, rfl, rfl, hcheck⟩
    rw [List.forall₂_map_left_iff, List.forall₂_same]
    exact fun name hname => ⟨directory, rfl, rfl, hcheck name hname⟩

/-- A listing is collected when it holds admitted paths in the directory of the prefix, at least one
of them and not too many. -/
theorem collectPaths_eq_ok_iff {pre : Text} {output : Bytes} {result : List Str}
    (hpre : pre ≠ []) : collectPaths pre output = .ok result ↔
      ∃ directory, ∃ names : List Str, pre = ofStr directory ∧
        (output.splitOn 0).filter (· ≠ []) = names.map (spell directory) ∧ names ≠ [] ∧
          names.length ≤ MAX_FILES ∧ (∀ name ∈ names, checkPath name = .ok ()) ∧
            sorted names = result := by
  have hcollect : collectPaths pre output = .ok result ↔
      ∃ names, List.Forall₂ (fun raw name => relativePath pre raw = .ok name)
        ((output.splitOn 0).filter (· ≠ [])) names ∧ names ≠ [] ∧ names.length ≤ MAX_FILES ∧
          sorted names = result := by
    simp only [← mapM_eq_ok_iff]
    rw [collectPaths]
    cases ((output.splitOn 0).filter (· ≠ [])).mapM (relativePath pre) with
    | error message => simp
    | ok names => simp [guard_eq_ok_iff, and_assoc]
  rw [hcollect]
  constructor
  · rintro ⟨names, hkept, hne, hcount, hresult⟩
    obtain ⟨directory, hpre, hlisted, hcheck⟩ := (forall₂_relativePath_iff hpre hne).mp hkept
    exact ⟨directory, names, hpre, hlisted, hne, hcount, hcheck, hresult⟩
  · rintro ⟨directory, names, hdirectory, hlisted, hne, hcount, hcheck, hresult⟩
    refine ⟨names, (forall₂_relativePath_iff hpre hne).mpr ?_, hne, hcount, hresult⟩
    exact ⟨directory, hdirectory, hlisted, hcheck⟩

/-- Collecting fails with a `ScanError` only. -/
theorem collectPaths_error {pre : Text} {output : Bytes} {failure : Failure}
    (h : collectPaths pre output = .error failure) : failure ≠ .osError := by
  rw [collectPaths] at h
  split at h
  · cases h
    exact Failure.noConfusion
  · split_ifs at h
    cases h
    exact Failure.noConfusion

namespace ScanRoot

variable {env : Environment} {root : Text} (w : ScanRoot env root)

/-- The text that git shows is what the first command prints. -/
theorem showsText_iff {text : Str} :
    w.ShowsText text ↔ ∃ output,
      runGit env SHOW_TOPLEVEL w.location = .ok output ∧ decodeUtf8 output = some text := by
  simp only [ShowsText, runGit_eq_ok_iff]
  constructor
  · rintro ⟨process, hrun, hok, htext⟩
    exact ⟨_, ⟨process, hrun, hok, rfl⟩, htext⟩
  · rintro ⟨_, ⟨process, hrun, hok, rfl⟩, htext⟩
    exact ⟨process, hrun, hok, htext⟩

/-- The enumeration asks git for the top level and for the paths below it. -/
theorem trackedRelativePaths_bind :
    trackedRelativePaths env root =
      (runGit env SHOW_TOPLEVEL w.location >>= fun topOutput =>
        match decodeUtf8 topOutput with
        | none => .error (.scanError (points "git repository root was not UTF-8"))
        | some topText =>
          match env.resolve (ofStr (strip topText)) with
          | none => .error .osError
          | some shown =>
            match relativeTo w.location shown with
            | none => .error (.scanError (points "scan root is outside the git worktree"))
            | some pre =>
              runGit env (listFiles (if pre ≠ [] then pre else points ".")) shown >>=
                collectPaths pre) := by
  rw [trackedRelativePaths, w.resolves]
  simp only [bind, Except.bind]
  cases runGit env SHOW_TOPLEVEL w.location with
  | error failure => rfl
  | ok topOutput =>
    cases htext : decodeUtf8 topOutput with
    | none => simp only [htext]
    | some topText =>
      cases hshown : env.resolve (ofStr (strip topText)) with
      | none => simp only [htext, hshown]
      | some shown =>
        cases hpre : relativeTo w.location shown with
        | none => simp only [htext, hshown, hpre]
        | some pre => simp only [htext, hshown, hpre]

/-- The enumeration collects what git lists. -/
theorem trackedRelativePaths_eq_ok_iff (result : List Str) :
    trackedRelativePaths env root = .ok result ↔
      ∃ directory, ∃ names : List Str, w.Lists (ofStr directory) (names.map (spell directory)) ∧
        names ≠ [] ∧ names.length ≤ MAX_FILES ∧ (∀ name ∈ names, checkPath name = .ok ()) ∧
          sorted names = result := by
  rw [w.trackedRelativePaths_bind, bind_eq_ok_iff]
  constructor
  · rintro ⟨topOutput, htop, h⟩
    split at h
    · cases h
    · next topText htext =>
      split at h
      · cases h
      · next shown hshown =>
        split at h
        · cases h
        · next pre hpre =>
          have hne := relativeTo_ne_nil hpre
          rw [if_pos hne, bind_eq_ok_iff] at h
          obtain ⟨output, hlist, hcollect⟩ := h
          obtain ⟨directory, names, rfl, hlisted, hrest⟩ := (collectPaths_eq_ok_iff hne).mp hcollect
          obtain ⟨process, hrun, hok, rfl⟩ := runGit_eq_ok_iff.mp hlist
          have hshows : w.Shows shown := ⟨topText, w.showsText_iff.mpr ⟨_, htop, htext⟩, hshown⟩
          exact ⟨directory, names, ⟨shown, process, hshows, hpre, hrun, hok, hlisted⟩, hrest⟩
  · rintro ⟨directory, names, ⟨shown, process, hshows, hpre, hrun, hok, hlisted⟩, hrest⟩
    obtain ⟨topText, htopText, hshown⟩ := hshows
    obtain ⟨topOutput, htop, htext⟩ := w.showsText_iff.mp htopText
    have hne := relativeTo_ne_nil hpre
    refine ⟨topOutput, htop, ?_⟩
    simp only [htext, hshown, hpre, if_pos hne, bind_eq_ok_iff]
    exact ⟨process.output, runGit_eq_ok_iff.mpr ⟨process, hrun, hok, rfl⟩,
      (collectPaths_eq_ok_iff hne).mpr ⟨directory, names, rfl, hlisted, hrest⟩⟩

/-- The enumeration fails with an `OSError` only when git shows a text that is no path. -/
theorem trackedRelativePaths_eq_osError_iff :
    trackedRelativePaths env root = .error .osError ↔ w.ShowsNoPath := by
  rw [w.trackedRelativePaths_bind, bind_eq_error_iff]
  constructor
  · rintro (htop | ⟨topOutput, htop, h⟩)
    · exact absurd rfl (runGit_error htop)
    · split at h
      · cases h
      · next topText htext =>
        split at h
        · next hshown => exact ⟨topText, w.showsText_iff.mpr ⟨topOutput, htop, htext⟩, hshown⟩
        · split at h
          · cases h
          · rw [bind_eq_error_iff] at h
            rcases h with hlist | ⟨output, -, hcollect⟩
            · exact absurd rfl (runGit_error hlist)
            · exact absurd rfl (collectPaths_error hcollect)
  · rintro ⟨topText, htopText, hshown⟩
    obtain ⟨topOutput, htop, htext⟩ := w.showsText_iff.mp htopText
    refine .inr ⟨topOutput, htop, ?_⟩
    simp only [htext, hshown]

/-- Otherwise the enumeration returns when git lists admitted paths, and raises a `ScanError` when
it does not. -/
theorem trackedRelativePaths_error_iff :
    (∃ message, trackedRelativePaths env root = .error (.scanError message)) ↔
      ¬w.ShowsNoPath ∧ ¬w.ListsAdmitted := by
  rw [← w.trackedRelativePaths_eq_osError_iff]
  have hlists : w.ListsAdmitted ↔ ∃ result, trackedRelativePaths env root = .ok result := by
    simp only [w.trackedRelativePaths_eq_ok_iff, ListsAdmitted]
    constructor
    · rintro ⟨directory, names, hlisted, hne, hcount, hcheck⟩
      exact ⟨_, directory, names, hlisted, hne, hcount, hcheck, rfl⟩
    · rintro ⟨_, directory, names, hlisted, hne, hcount, hcheck, -⟩
      exact ⟨directory, names, hlisted, hne, hcount, hcheck⟩
  rw [hlists]
  cases trackedRelativePaths env root with
  | ok result => simp
  | error failure => cases failure <;> simp

end ScanRoot

end RealityCore.SourceScan
