import Mathlib.Data.List.Dedup
import Mathlib.Data.List.Perm.Basic
import RealityCore.Source.ScanRoot

/-!
# What the enumeration of tracked files returns

The enumeration returns the tracked files of a root that git lists below its prefix, each of them
once, and of no other root. At the top level the prefix is the text `.`, which no listed path starts
with, so every listing is refused there. Below the top level git may select paths outside the root,
list an unmerged path several times, or print more than is read.
-/

namespace RealityCore.SourceScan

open Outcome (forall₂_filterMap map_eq_map_of_forall₂)
open Python (Str Bytes Text points ofStr toStr? encodeUtf8 decodeUtf8 encodeUtf8_append
  encodeUtf8_injective encodeUtf8_of_decodeUtf8 decodeUtf8_encodeUtf8 splitOn_terminated sorted
  sorted_eq_sorted_iff)

namespace ScanRoot

variable {env : Environment} {root : Text} (w : ScanRoot env root)

/-- The entries below the root; an unmerged path is among them several times. -/
def entriesBelow : List Bytes := w.entries.filter w.stem.isPrefixOf

/-- Git's usual answers: it shows the top level, and lists the entries that a pathspec selects, all
those below the root among them. A pathspec with a leading colon may not be taken so. -/
structure UsualAnswers (selects : Bytes → Bool) : Prop where
  shows : w.Shows w.top
  lists : ∃ process, env.run (listFiles (prefixText w.below)) w.top = some process ∧
    process.stderr.length ≤ MAX_SUBPROCESS_OUTPUT_BYTES ∧ process.returnCode = 0 ∧
      process.output = (w.entries.filter selects).flatMap (· ++ [0])
  selects_below : ∀ raw ∈ w.entries, w.stem <+: raw → selects raw = true

/-- The root is below the top level, its prefix is a text, nothing outside it is selected, no path
below it is unmerged, and the listing stays within its bound. -/
def PlainlyListed (selects : Bytes → Bool) : Prop :=
  w.below ≠ [] ∧ toStr? (prefixText w.below) ≠ none ∧
    (∀ raw ∈ w.entries, selects raw = true → w.stem <+: raw) ∧ w.entriesBelow.Nodup ∧
      (w.entriesBelow.map fun raw => raw.length + 1).sum ≤ MAX_GIT_OUTPUT_BYTES

/-- Files with different relative paths are different. -/
theorem fileAt_injective : Function.Injective w.fileAt := fun _ _ h =>
  encodeUtf8_injective (List.append_cancel_left h)

/-- Without a reason to refuse the root, its files have admitted relative paths. -/
theorem exists_names_of_not_due (h : ¬w.Due) :
    ∃ names, w.filesBelow = names.map w.fileAt ∧ w.filesBelow.filterMap w.relativeName = names ∧
      names ≠ [] ∧ names.length ≤ MAX_FILES ∧ ∀ name ∈ names, checkPath name = .ok () := by
  simp only [Due, not_or, not_exists, not_and, not_forall, not_not, not_lt] at h
  obtain ⟨hgood, hne, hcount⟩ := h
  have hnames : List.Forall₂ (fun raw name => raw = w.fileAt name ∧ checkPath name = .ok ())
      w.filesBelow (w.filesBelow.filterMap w.relativeName) := by
    refine forall₂_filterMap fun raw hraw => ?_
    obtain ⟨name, hname, hcheck⟩ := hgood raw hraw
    refine ⟨name, hname, ?_, hcheck⟩
    obtain ⟨rest, rfl⟩ := List.isPrefixOf_iff_prefix.mp
      (List.mem_filter.mp (List.mem_dedup.mp hraw)).2
    rw [relativeName, List.drop_left] at hname
    rw [fileAt, encodeUtf8_of_decodeUtf8 hname]
  have hlength := hnames.length_eq
  refine ⟨_, ?_, rfl, ?_, hlength ▸ hcount, fun name hname => ?_⟩
  · have hmap : w.filesBelow.map id = _ :=
      map_eq_map_of_forall₂ hnames fun raw name hfile => hfile.1
    rwa [List.map_id] at hmap
  · intro hnil
    rw [hnil, List.length_nil, List.length_eq_zero_iff] at hlength
    exact hne hlength
  · obtain ⟨-, -, -, hcheck⟩ := Outcome.exists_of_forall₂_right hnames hname
    exact hcheck

/-- Without a reason to refuse the root, its files are returned exactly when git lists them. -/
theorem trackedRelativePaths_iff_covered (h : ¬w.Due) :
    trackedRelativePaths env root = .ok (sorted (w.filesBelow.filterMap w.relativeName)) ↔
      w.Covered := by
  obtain ⟨files, hfiles, hnames, hne, hcount, hcheck⟩ := w.exists_names_of_not_due h
  rw [w.trackedRelativePaths_eq_ok_iff, hnames, Covered, hfiles]
  refine exists_congr fun directory => exists_congr fun names => and_congr_right fun _ => ?_
  rw [List.map_perm_map_iff w.fileAt_injective]
  constructor
  · exact fun ⟨_, _, _, hsorted⟩ => sorted_eq_sorted_iff.mp hsorted
  · intro hperm
    refine ⟨fun hnil => hne ?_, hperm.length_eq ▸ hcount, ?_, sorted_eq_sorted_iff.mpr hperm⟩
    · exact (hnil ▸ hperm).nil_eq.symm
    · exact fun name hname => hcheck name (hperm.mem_iff.mp hname)

/-- The computed prefix of a root in the worktree. -/
theorem relativeTo_top : relativeTo w.location w.top = some (prefixText w.below) := by
  rw [relativeTo, if_pos ⟨w.below, w.parts_eq.symm⟩, w.parts_eq, List.drop_left, prefixText]
  cases w.below <;> rfl

/-- Below the top level, and with a prefix that is a text, the files below the root are spelled as
git lists them. -/
theorem spell_eq_fileAt {directory : Str} (hbelow : w.below ≠ [])
    (hdirectory : prefixText w.below = ofStr directory) : spell directory = w.fileAt := by
  have htext : stemText w.below = ofStr (directory ++ ['/']) := by
    rw [prefixText, if_neg hbelow] at hdirectory
    rw [stemText, if_neg hbelow, hdirectory, Python.ofStr_append]
    rfl
  have hstem : w.stem = encodeUtf8 (directory ++ ['/']) := by
    have hencoded := w.stem_eq
    rw [htext, Python.fsencode?_ofStr] at hencoded
    exact (Option.some.inj hencoded).symm
  funext name
  rw [spell, fileAt, hstem, ← encodeUtf8_append, List.append_assoc, List.singleton_append]

/-- Git shows one text. -/
theorem ShowsText.unique {text other : Str} (h : w.ShowsText text) (h' : w.ShowsText other) :
    text = other := by
  obtain ⟨process, hrun, -, htext⟩ := h
  obtain ⟨process', hrun', -, hother⟩ := h'
  obtain rfl : process = process' := Option.some.inj (hrun.symm.trans hrun')
  exact Option.some.inj (htext.symm.trans hother)

/-- Git shows one top level. -/
theorem Shows.unique {shown other : ResolvedPath} (h : w.Shows shown) (h' : w.Shows other) :
    shown = other := by
  obtain ⟨text, htext, hshown⟩ := h
  obtain ⟨text', htext', hother⟩ := h'
  obtain rfl := htext.unique w htext'
  exact Option.some.inj (hshown.symm.trans hother)

/-- A top level that git shows is a path. -/
theorem Shows.not_showsNoPath {shown : ResolvedPath} (h : w.Shows shown) : ¬w.ShowsNoPath := by
  obtain ⟨text, htext, hshown⟩ := h
  rintro ⟨text', htext', hnone⟩
  obtain rfl := htext.unique w htext'
  exact absurd (hshown.symm.trans hnone) (Option.some_ne_none shown)

variable {selects : Bytes → Bool}

/-- Git's usual answer is the list of the selected entries, when it stays within its bound. -/
theorem lists_iff (h : w.UsualAnswers selects) {pre : Text} {listed : List Bytes} :
    w.Lists pre listed ↔ pre = prefixText w.below ∧ w.entries.filter selects = listed ∧
      ((w.entries.filter selects).map fun raw => raw.length + 1).sum ≤ MAX_GIT_OUTPUT_BYTES := by
  obtain ⟨process, hrun, hstderr, hcode, houtput⟩ := h.lists
  have hlength : process.output.length =
      ((w.entries.filter selects).map fun raw => raw.length + 1).sum := by
    rw [houtput, List.length_flatMap]
    simp
  have hlisted : (process.output.splitOn 0).filter (· ≠ []) = w.entries.filter selects := by
    rw [houtput]
    refine splitOn_terminated fun raw hraw => ?_
    obtain ⟨hne, hzero, -⟩ := w.entries_path raw (List.mem_of_mem_filter hraw)
    exact ⟨hne, hzero⟩
  rw [← hlength]
  constructor
  · rintro ⟨shown, found, hshows, hpre, hfound, hok, rfl⟩
    obtain rfl : shown = w.top := hshows.unique w h.shows
    obtain rfl : prefixText w.below = pre := Option.some.inj (w.relativeTo_top.symm.trans hpre)
    obtain rfl : process = found := Option.some.inj (hrun.symm.trans hfound)
    exact ⟨rfl, hlisted.symm, hok.output⟩
  · rintro ⟨rfl, rfl, hbound⟩
    exact ⟨w.top, process, h.shows, w.relativeTo_top, hrun, ⟨hbound, hstderr, hcode⟩, hlisted⟩

/-- A usual listing of paths below the prefix is that of the entries below a root below the top
level. -/
theorem entriesBelow_of_lists (h : w.UsualAnswers selects) {directory : Str} {names : List Str}
    (hlists : w.Lists (ofStr directory) (names.map (spell directory))) (hne : names ≠ []) :
    w.below ≠ [] ∧ prefixText w.below = ofStr directory ∧ w.entriesBelow = names.map w.fileAt ∧
      w.entries.filter selects = w.entriesBelow := by
  obtain ⟨hpre, hselected, -⟩ := (w.lists_iff h).mp hlists
  have hbelow : w.below ≠ [] := by
    intro hnil
    rw [prefixText, if_pos hnil] at hpre
    obtain rfl : directory = ".".toList := Python.ofStr_injective hpre
    obtain ⟨first, hfirst⟩ := List.exists_mem_of_ne_nil names hne
    have hentry : spell ".".toList first ∈ w.entries.filter selects :=
      hselected ▸ List.mem_map_of_mem hfirst
    refine (w.entries_path _ (List.mem_of_mem_filter hentry)).2.2 ⟨encodeUtf8 first, ?_⟩
    rw [spell, ← encodeUtf8_append]
    rfl
  rw [w.spell_eq_fileAt hbelow hpre.symm] at hselected
  have hbelow_iff : w.entries.filter selects = w.entriesBelow := by
    refine List.filter_congr fun raw hraw => ?_
    rw [Bool.eq_iff_iff, List.isPrefixOf_iff_prefix]
    refine ⟨fun hsel => ?_, h.selects_below raw hraw⟩
    have hmem : raw ∈ names.map w.fileAt := hselected ▸ List.mem_filter.mpr ⟨hraw, hsel⟩
    obtain ⟨name, -, rfl⟩ := List.mem_map.mp hmem
    exact ⟨encodeUtf8 name, rfl⟩
  exact ⟨hbelow, hpre.symm, hbelow_iff ▸ hselected, hbelow_iff⟩

/-- A usual listing of admitted paths gives no reason to refuse the root. -/
theorem not_due_of_listsAdmitted (h : w.UsualAnswers selects) (hlists : w.ListsAdmitted) :
    ¬w.Due := by
  obtain ⟨directory, names, hlisted, hne, hcount, hcheck⟩ := hlists
  obtain ⟨-, -, hentries, -⟩ := w.entriesBelow_of_lists h hlisted hne
  have hfiles : w.filesBelow = (names.map w.fileAt).dedup := congrArg List.dedup hentries
  rintro (⟨raw, hraw, hbad⟩ | hnone | hmany)
  · rw [hfiles, List.mem_dedup] at hraw
    obtain ⟨name, hname, rfl⟩ := List.mem_map.mp hraw
    refine hbad name ?_ (hcheck name hname)
    rw [relativeName, fileAt, List.drop_left, decodeUtf8_encodeUtf8]
  · rw [hfiles, List.dedup_eq_nil, List.map_eq_nil_iff] at hnone
    exact hne hnone
  · have hle := (List.dedup_sublist (names.map w.fileAt)).length_le
    rw [← hfiles, List.length_map] at hle
    omega

/-- With git's usual answers, the files of a root that is not to be refused are listed when nothing
else is selected, none of them is unmerged, and the listing stays within its bound. -/
theorem covered_iff_plainlyListed (h : w.UsualAnswers selects) (hdue : ¬w.Due) :
    w.Covered ↔ w.PlainlyListed selects := by
  obtain ⟨files, hfiles, -, hne, -⟩ := w.exists_names_of_not_due hdue
  constructor
  · rintro ⟨directory, names, hlists, hperm⟩
    have hnames : names ≠ [] := by
      rintro rfl
      rw [hfiles] at hperm
      exact hne (List.map_eq_nil_iff.mp hperm.nil_eq.symm)
    obtain ⟨-, -, hbound⟩ := (w.lists_iff h).mp hlists
    obtain ⟨hbelow, hpre, hentries, hselected⟩ := w.entriesBelow_of_lists h hlists hnames
    refine ⟨hbelow, ?_, fun raw hraw hsel => ?_, ?_, hselected ▸ hbound⟩
    · rw [Python.toStr?_eq_some_iff.mpr hpre]
      exact Option.some_ne_none directory
    · have hmem : raw ∈ w.entriesBelow := hselected ▸ List.mem_filter.mpr ⟨hraw, hsel⟩
      exact List.isPrefixOf_iff_prefix.mp (List.mem_filter.mp hmem).2
    · rw [← hentries] at hperm
      exact hperm.nodup_iff.mpr (List.nodup_dedup _)
  · rintro ⟨hbelow, htext, hinside, hnodup, hbound⟩
    obtain ⟨directory, hdirectory⟩ := Option.ne_none_iff_exists'.mp htext
    have hpre := Python.toStr?_eq_some_iff.mp hdirectory
    have hentries : w.entriesBelow = files.map w.fileAt := by
      rw [← hfiles]
      exact hnodup.dedup.symm
    have hselected : w.entries.filter selects = w.entriesBelow := by
      refine List.filter_congr fun raw hraw => ?_
      rw [Bool.eq_iff_iff, List.isPrefixOf_iff_prefix]
      exact ⟨hinside raw hraw, h.selects_below raw hraw⟩
    refine ⟨directory, files, (w.lists_iff h).mpr ⟨hpre.symm, ?_, hselected ▸ hbound⟩, ?_⟩
    · rw [hselected, hentries, w.spell_eq_fileAt hbelow hpre]
    · rw [hfiles]

/-- The enumeration does what it should exactly when git lists the files below the root, each once,
where they are to be returned, and no admitted paths instead where the root is to be refused. With
git's usual answers, a root that is not to be refused has to be plainly listed. -/
theorem enumerates_iff :
    (w.Enumerates ↔ (¬w.Due → w.Covered) ∧ (w.Due → ¬w.ShowsNoPath ∧ ¬w.ListsAdmitted)) ∧
      ∀ selects, w.UsualAnswers selects → (w.Enumerates ↔ w.Due ∨ w.PlainlyListed selects) := by
  have hexact : w.Enumerates ↔
      (¬w.Due → w.Covered) ∧ (w.Due → ¬w.ShowsNoPath ∧ ¬w.ListsAdmitted) := by
    rw [Enumerates, w.trackedRelativePaths_error_iff]
    exact and_congr_left fun _ => forall_congr' fun hdue => w.trackedRelativePaths_iff_covered hdue
  refine ⟨hexact, fun selects h => ?_⟩
  rw [hexact, or_iff_not_imp_left]
  constructor
  · exact fun ⟨hcovered, _⟩ hdue => (w.covered_iff_plainlyListed h hdue).mp (hcovered hdue)
  · refine fun hplain => ⟨fun hdue => (w.covered_iff_plainlyListed h hdue).mpr (hplain hdue), ?_⟩
    exact fun hdue =>
      ⟨h.shows.not_showsNoPath w, fun hlists => w.not_due_of_listsAdmitted h hlists hdue⟩

end ScanRoot

/-- The tracked file of a small worktree. -/
def docsFile : Bytes := encodeUtf8 "docs/a.md".toList

/-- `/repo` -/
def repoPath : ResolvedPath := ⟨[points "repo"], by decide⟩

/-- `/repo/docs` -/
def docsPath : ResolvedPath := ⟨[points "repo", points "docs"], by decide⟩

/-- A worktree at `/repo` whose only tracked file is `docs/a.md`, listed for `.` and for `docs`. -/
def docsEnvironment : Environment where
  resolve text :=
    if text = points "/repo" then some repoPath
    else if text = points "/repo/docs" then some docsPath
    else none
  run command _ :=
    if command = SHOW_TOPLEVEL then some ⟨encodeUtf8 "/repo\n".toList, [], 0⟩
    else if command = listFiles (points ".") ∨ command = listFiles (points "docs") then
      some ⟨docsFile ++ [0], [], 0⟩
    else some ⟨[], encodeUtf8 "fatal\n".toList, 128⟩

/-- The small worktree scanned from its top level. -/
def docsTopLevel : ScanRoot docsEnvironment (points "/repo") where
  location := repoPath
  top := repoPath
  below := []
  parts_eq := rfl
  resolves := rfl
  stem := []
  stem_eq := rfl
  entries := [docsFile]
  entries_path := by decide

/-- The small worktree scanned from the directory of its file. -/
def docsDirectory : ScanRoot docsEnvironment (points "/repo/docs") where
  location := docsPath
  top := repoPath
  below := [points "docs"]
  parts_eq := rfl
  resolves := rfl
  stem := encodeUtf8 "docs/".toList
  stem_eq := rfl
  entries := [docsFile]
  entries_path := by decide

/-- In the small worktree git gives its usual answers at the top level. -/
theorem usualAnswers_docsTopLevel : docsTopLevel.UsualAnswers fun _ => true where
  shows := ⟨"/repo\n".toList, ⟨_, rfl, ⟨by decide, Nat.zero_le _, rfl⟩,
    decodeUtf8_encodeUtf8 "/repo\n".toList⟩, rfl⟩
  lists := ⟨⟨docsFile ++ [0], [], 0⟩, rfl, Nat.zero_le _, rfl, rfl⟩
  selects_below _ _ _ := rfl

/-- In the small worktree git gives its usual answers in the directory of its file. -/
theorem usualAnswers_docsDirectory : docsDirectory.UsualAnswers fun _ => true where
  shows := ⟨"/repo\n".toList, ⟨_, rfl, ⟨by decide, Nat.zero_le _, rfl⟩,
    decodeUtf8_encodeUtf8 "/repo\n".toList⟩, rfl⟩
  lists := ⟨⟨docsFile ++ [0], [], 0⟩, rfl, Nat.zero_le _, rfl, rfl⟩
  selects_below _ _ _ := rfl

/-- A root whose only tracked file has an admitted relative path gives no reason to refuse it. -/
theorem not_due_of_singleton {env : Environment} {root : Text} {w : ScanRoot env root} {raw : Bytes}
    {name : Str} (hfiles : w.filesBelow = [raw]) (hname : w.relativeName raw = some name)
    (hcheck : checkPath name = .ok ()) : ¬w.Due := by
  rw [ScanRoot.Due, hfiles]
  rintro (⟨other, hother, hbad⟩ | hnone | hmany)
  · exact hbad name (List.mem_singleton.mp hother ▸ hname) hcheck
  · cases hnone
  · exact absurd (show MAX_FILES < 1 from hmany) (by decide)

/-- Scanned from its top level, the small worktree is refused without a reason. -/
theorem docsTopLevel_refused : ¬docsTopLevel.Due ∧ ¬docsTopLevel.Enumerates := by
  have hdue : ¬docsTopLevel.Due :=
    not_due_of_singleton rfl (decodeUtf8_encodeUtf8 "docs/a.md".toList) (by decide)
  refine ⟨hdue, fun h => ?_⟩
  have hcovered := (docsTopLevel.trackedRelativePaths_iff_covered hdue).mp (h.1 hdue)
  have hplain := (docsTopLevel.covered_iff_plainlyListed usualAnswers_docsTopLevel hdue).mp hcovered
  exact hplain.1 rfl

/-- Scanned from the directory of its file, the small worktree is enumerated. -/
theorem enumerates_iff_docsDirectory :
    ¬docsDirectory.Due ∧ docsDirectory.PlainlyListed (fun _ => true) ∧
      docsDirectory.Covered ∧ docsDirectory.Enumerates := by
  have hdue : ¬docsDirectory.Due :=
    not_due_of_singleton rfl (decodeUtf8_encodeUtf8 "a.md".toList) (by decide)
  have hplain : docsDirectory.PlainlyListed fun _ => true :=
    ⟨by decide, by decide, by decide, by decide, by decide⟩
  obtain ⟨hexact, husual⟩ := docsDirectory.enumerates_iff
  have henumerates := (husual _ usualAnswers_docsDirectory).mpr (.inr hplain)
  exact ⟨hdue, hplain, (hexact.mp henumerates).1 hdue, henumerates⟩

end RealityCore.SourceScan
