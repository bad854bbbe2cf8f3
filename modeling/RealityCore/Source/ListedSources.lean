import Mathlib.Data.Set.Card
import RealityCore.Source.Traversal

/-!
# The sources of a directory tree

A walk that returns lists the sources of the tree, each once and in the order of their texts, and
is refused when there are too many directories or sources. No listed path leads through a symbolic
link, and the entries behind a link have no influence on the walk.
-/

namespace RealityCore.SourceScan

open Outcome (bind_eq_ok_iff bind_eq_error_iff guard_eq_ok_iff)
open Python (Text points)

variable {root : ResolvedPath} {tree : Tree}

/-- The paths in ascending order of their texts. -/
def sortPaths (paths : List (List Text)) : List (List Text) :=
  paths.insertionSort fun path next => asPosix path ≤ asPosix next

/-- Names of directories that are opened can be joined and split again. -/
theorem Tree.Opens.separator_notMem {directory : List Text} (h : tree.Opens directory) :
    ∀ name ∈ directory, separator ∉ name := by
  induction h with
  | root => simp
  | child _ hentries hmem _ ih =>
    intro name hname
    rcases List.mem_append.mp hname with hname | hname
    · exact ih name hname
    · rw [List.mem_singleton.mp hname]
      exact (tree.isName _ _ hentries _ hmem).2.1

/-- An entry has a path of names. -/
theorem Tree.IsEntry.names {path : List Text} {kind : Kind} (h : tree.IsEntry path kind) :
    path ≠ [] ∧ ∀ name ∈ path, separator ∉ name := by
  obtain ⟨directory, entries, name, hopens, hentries, hmem, rfl⟩ := h
  refine ⟨by simp, fun part hpart => ?_⟩
  rcases List.mem_append.mp hpart with hpart | hpart
  · exact hopens.separator_notMem part hpart
  · rw [List.mem_singleton.mp hpart]
    exact (tree.isName _ _ hentries _ hmem).2.1

/-- Paths of names with the same text are the same. -/
theorem asPosix_inj {path next : List Text} (hpath : path ≠ [] ∧ ∀ name ∈ path, separator ∉ name)
    (hnext : next ≠ [] ∧ ∀ name ∈ next, separator ∉ name) (h : asPosix path = asPosix next) :
    path = next := by
  calc path = (asPosix path).splitOn separator :=
        (List.splitOn_intercalate separator hpath.2 hpath.1).symm
    _ = (asPosix next).splitOn separator := congrArg (List.splitOn separator) h
    _ = next := List.splitOn_intercalate separator hnext.2 hnext.1

/-- An entry is of one kind. -/
theorem Tree.IsEntry.kind_unique {path : List Text} {kind kind' : Kind}
    (h : tree.IsEntry path kind) (h' : tree.IsEntry path kind') : kind = kind' := by
  obtain ⟨directory, entries, name, -, hentries, hmem, rfl⟩ := h
  obtain ⟨directory', entries', name', -, hentries', hmem', heq⟩ := h'
  obtain ⟨rfl, hname⟩ := List.append_inj' heq rfl
  obtain rfl := List.singleton_inj.mp hname
  obtain rfl := Option.some.inj (hentries.symm.trans hentries')
  have hentry := List.inj_on_of_nodup_map (tree.names_nodup _ _ hentries) hmem hmem' rfl
  exact congrArg Prod.snd hentry

/-- The way to a directory that is opened leads through directories. -/
theorem Tree.Opens.isEntry_of_prefix {directory above : List Text} (h : tree.Opens directory)
    (habove : above <+: directory) (hne : above ≠ []) : tree.IsEntry above .directory := by
  induction h with
  | root => exact absurd (List.prefix_nil.mp habove) hne
  | @child directory entries name hopens hentries hmem _ ih =>
    rcases List.prefix_concat_iff.mp habove with rfl | habove
    · exact ⟨directory, entries, name, hopens, hentries, hmem, rfl⟩
    · exact ih habove

/-- No source lies behind a symbolic link. -/
theorem Tree.IsSource.not_behind_link {path link : List Text} (h : tree.IsSource path)
    (hlink : tree.IsEntry link .symlink) (hbelow : link <+: path) : path = link := by
  have hopened : ∃ directory name, tree.Opens directory ∧ path = directory ++ [name] := by
    rcases h with ⟨directory, _, name, hopens, -, -, heq⟩ | ⟨directory, _, name, hopens, -, -, heq⟩
    · exact ⟨directory, name, hopens, heq⟩
    · exact ⟨directory, name, hopens, heq⟩
  obtain ⟨directory, name, hopens, rfl⟩ := hopened
  rcases List.prefix_concat_iff.mp hbelow with heq | hbelow
  · exact heq.symm
  · exact absurd (hlink.kind_unique (hopens.isEntry_of_prefix hbelow hlink.names.1)) nofun

/-- Sorting keeps the paths. -/
theorem sortPaths_perm (paths : List (List Text)) : (sortPaths paths).Perm paths :=
  List.perm_insertionSort _ paths

/-- Sorted sources ascend strictly in their texts. -/
theorem sortPaths_pairwise {paths : List (List Text)} (hnodup : paths.Nodup)
    (hsource : ∀ path ∈ paths, tree.IsSource path) :
    ((sortPaths paths).map asPosix).Pairwise (· < ·) := by
  have htotal : Std.Total fun path next : List Text => asPosix path ≤ asPosix next :=
    ⟨fun path next => le_total (asPosix path) (asPosix next)⟩
  have htrans : IsTrans (List Text) fun path next => asPosix path ≤ asPosix next :=
    ⟨fun _ _ _ => le_trans⟩
  have hle : (sortPaths paths).Pairwise fun path next => asPosix path ≤ asPosix next :=
    List.pairwise_insertionSort _ paths
  have hne : (sortPaths paths).Pairwise (· ≠ ·) := (sortPaths_perm paths).nodup_iff.mpr hnodup
  have hnames : ∀ path ∈ sortPaths paths, path ≠ [] ∧ ∀ name ∈ path, separator ∉ name := by
    intro path hpath
    exact (hsource path ((sortPaths_perm paths).mem_iff.mp hpath)).elim (·.names) (·.names)
  rw [List.pairwise_map]
  refine (hle.and hne).imp_of_mem fun {path next} hpath hnext h => lt_of_le_of_ne h.1 ?_
  exact fun heq => h.2 (asPosix_inj (hnames path hpath) (hnames next hnext) heq)

/-- The enumeration returns the sorted paths of a walk that returns few enough. -/
theorem sourcePaths_eq_ok_iff {result : List (List Text)} :
    sourcePaths root tree = .ok result ↔ ∃ paths,
      walk root tree MAX_DIRECTORIES ⟨[([], 0)], []⟩ = .ok paths ∧ paths.length ≤ MAX_FILES ∧
        sortPaths paths = result := by
  simp only [sourcePaths, bind_eq_ok_iff, guard_eq_ok_iff, not_lt, Except.ok.injEq, sortPaths,
    gt_iff_lt]

/-- A set of paths in a list has no more members than the list. -/
theorem encard_le_length {s : Set (List Text)} {paths : List (List Text)}
    (h : ∀ path ∈ s, path ∈ paths) : s.encard ≤ paths.length := by
  have hsubset : s ⊆ paths.toFinset := fun path hpath => by simpa using h path hpath
  calc s.encard ≤ (paths.toFinset : Set (List Text)).encard := Set.encard_mono hsubset
    _ = paths.toFinset.card := Set.encard_coe_eq_coe_finsetCard _
    _ ≤ paths.length := Nat.cast_le.mpr (List.toFinset_card_le _)

/-- An enumeration that returns lists the sources, within the bounds on them and on the
directories. -/
theorem of_sourcePaths_eq_ok {paths : List (List Text)} (h : sourcePaths root tree = .ok paths) :
    (∀ path, path ∈ paths ↔ tree.IsSource path) ∧ paths.Nodup ∧
      (paths.map asPosix).Pairwise (· < ·) ∧
        {directory | tree.Opens directory}.encard ≤ MAX_DIRECTORIES ∧
          {path | tree.IsSource path}.encard ≤ MAX_FILES := by
  obtain ⟨found, hwalk, hlength, rfl⟩ := sourcePaths_eq_ok_iff.mp h
  obtain ⟨hmem, hnodup, visited, hvisited, hopens⟩ := walk_root_eq_ok hwalk
  refine ⟨fun path => (sortPaths_perm found).mem_iff.trans (hmem path),
    (sortPaths_perm found).nodup_iff.mpr hnodup,
    sortPaths_pairwise hnodup fun path hpath => (hmem path).mp hpath, ?_, ?_⟩
  · exact (encard_le_length hopens).trans (Nat.cast_le.mpr hvisited)
  · exact (encard_le_length fun path => (hmem path).mpr).trans (Nat.cast_le.mpr hlength)

/-- The visit of an entry fails with a `ScanError` only. -/
theorem visitEntry_error {directory : List Text} {depth : ℕ} {state : Walk} {entry : Text × Kind}
    {failure : Failure} (h : visitEntry directory depth state entry = .error failure) :
    ∃ message, failure = .scanError message := by
  rw [visitEntry] at h
  split at h
  · exact ⟨_, (Except.error.inj h).symm⟩
  · split at h
    · cases h
    · split_ifs at h
      exact ⟨_, (Except.error.inj h).symm⟩
    · cases h
    · cases h

/-- The loop over the entries of a directory fails with a `ScanError` only. -/
theorem foldlM_visitEntry_error {directory : List Text} {depth : ℕ} {state : Walk}
    {entries : List (Text × Kind)} {failure : Failure}
    (h : entries.foldlM (visitEntry directory depth) state = .error failure) :
    ∃ message, failure = .scanError message := by
  induction entries generalizing state with
  | nil => cases h
  | cons entry entries ih =>
    rw [List.foldlM_cons, bind_eq_error_iff] at h
    rcases h with hentry | ⟨next, -, hrest⟩
    · exact visitEntry_error hentry
    · exact ih hrest

/-- The visit of a directory fails with a `ScanError` only. -/
theorem visitDirectory_error {directory : List Text} {depth : ℕ} {state : Walk}
    {failure : Failure} (h : visitDirectory root tree directory depth state = .error failure) :
    ∃ message, failure = .scanError message := by
  rw [visitDirectory] at h
  split at h
  · exact ⟨_, (Except.error.inj h).symm⟩
  · next listing _ =>
    dsimp only at h
    split at h
    · exact ⟨_, (Except.error.inj h).symm⟩
    · exact foldlM_visitEntry_error h

/-- The loop over the stack fails with a `ScanError` only. -/
theorem walk_error {remaining : ℕ} {state : Walk} {failure : Failure}
    (h : walk root tree remaining state = .error failure) :
    ∃ message, failure = .scanError message := by
  induction remaining generalizing state with
  | zero =>
    obtain ⟨_ | ⟨top, stack⟩, listed⟩ := state
    · cases h
    · exact ⟨_, (Except.error.inj h).symm⟩
  | succ remaining ih =>
    obtain ⟨_ | ⟨⟨directory, depth⟩, stack⟩, listed⟩ := state
    · cases h
    · rw [walk, bind_eq_error_iff] at h
      rcases h with hvisit | ⟨next, -, hrest⟩
      · exact visitDirectory_error hvisit
      · exact ih hrest

/-- An enumeration that does not return fails with a `ScanError`. -/
theorem sourcePaths_error (h : ∀ result, sourcePaths root tree ≠ .ok result) :
    ∃ message, sourcePaths root tree = .error (.scanError message) := by
  cases hwalk : walk root tree MAX_DIRECTORIES ⟨[([], 0)], []⟩ with
  | error failure =>
    obtain ⟨message, rfl⟩ := walk_error hwalk
    exact ⟨message, by rw [sourcePaths, hwalk]; rfl⟩
  | ok paths =>
    by_cases hlength : paths.length ≤ MAX_FILES
    · exact absurd (sourcePaths_eq_ok_iff.mpr ⟨paths, hwalk, hlength, rfl⟩) (h _)
    · refine ⟨Python.points "file count exceeded the bounded limit", ?_⟩
      rw [sourcePaths, hwalk]
      exact if_pos (not_le.mp hlength)

/-- A walk over directories that are opened depends on the entries of such directories only. -/
theorem walk_congr {tree' : Tree} {remaining : ℕ} {state : Walk}
    (hsame : ∀ directory, tree.Opens directory → tree'.scandir directory = tree.scandir directory)
    (hstack : ∀ directory ∈ state.stack.map Prod.fst, tree.Opens directory) :
    walk root tree' remaining state = walk root tree remaining state := by
  induction remaining generalizing state with
  | zero => obtain ⟨_ | ⟨top, stack⟩, listed⟩ := state <;> rfl
  | succ remaining ih =>
    obtain ⟨_ | ⟨⟨directory, depth⟩, stack⟩, listed⟩ := state
    · rfl
    · obtain ⟨hopens, hstack⟩ := List.forall_mem_cons.mp hstack
      have hvisit : visitDirectory root tree' directory depth ⟨stack, listed⟩ =
          visitDirectory root tree directory depth ⟨stack, listed⟩ := by
        rw [visitDirectory, visitDirectory, hsame directory hopens]
      rw [walk, walk, hvisit]
      cases hnext : visitDirectory root tree directory depth ⟨stack, listed⟩ with
      | error failure => rfl
      | ok next =>
        apply ih
        obtain ⟨_, _, ⟨entries, hentries, rfl, -⟩, hpushed, -⟩ := visitDirectory_eq_ok hnext
        intro below hbelow
        rw [hpushed] at hbelow
        rcases List.mem_append.mp hbelow with hbelow | hbelow
        · obtain ⟨name, hname, hincluded, rfl⟩ := mem_pushedBelow.mp hbelow
          exact hopens.child hentries hname hincluded
        · exact hstack below hbelow

/-- The enumeration depends on the entries of the directories that are opened only. -/
theorem sourcePaths_congr {tree' : Tree}
    (hsame : ∀ directory, tree.Opens directory →
      tree'.scandir directory = tree.scandir directory) :
    sourcePaths root tree' = sourcePaths root tree := by
  have hroot : ∀ directory ∈ [([], 0)].map (Prod.fst (α := List Text)), tree.Opens directory := by
    simpa using Tree.Opens.root
  rw [sourcePaths, sourcePaths, walk_congr hsame hroot]

/-- An enumeration that returns lists exactly the sources, each once and in the order of their
texts, none of them behind a symbolic link. It depends on the directories that are opened only, and
fails when there are too many directories or too many sources. -/
theorem sourcePaths_lists_sources (root : ResolvedPath) (tree : Tree) :
    (∀ paths, sourcePaths root tree = .ok paths →
        (∀ path, path ∈ paths ↔ tree.IsSource path) ∧ paths.Nodup ∧
          (paths.map asPosix).Pairwise (· < ·) ∧
            ∀ path ∈ paths, ∀ link, tree.IsEntry link .symlink → link <+: path → path = link) ∧
      (∀ tree' : Tree, (∀ directory, tree.Opens directory →
          tree'.scandir directory = tree.scandir directory) →
            sourcePaths root tree' = sourcePaths root tree) ∧
        (MAX_DIRECTORIES < {directory | tree.Opens directory}.encard ∨
            MAX_FILES < {path | tree.IsSource path}.encard →
          ∃ message, sourcePaths root tree = .error (.scanError message)) := by
  refine ⟨fun paths h => ?_, fun tree' => sourcePaths_congr, fun hmany => ?_⟩
  · obtain ⟨hmem, hnodup, hsorted, -⟩ := of_sourcePaths_eq_ok h
    refine ⟨hmem, hnodup, hsorted, fun path hpath link hlink hbelow => ?_⟩
    exact ((hmem path).mp hpath).not_behind_link hlink hbelow
  · apply sourcePaths_error
    intro paths h
    obtain ⟨-, -, -, hdirectories, hfiles⟩ := of_sourcePaths_eq_ok h
    exact hmany.elim (not_lt.mpr hdirectories) (not_lt.mpr hfiles)

/-- A file, a link, a directory with a file, and a directory that is excluded. -/
def sampleTree : Tree where
  scandir directory :=
    if directory = [] then
      some [(points "link", .symlink), (points "docs", .directory), (points "build", .directory),
        (points "a.md", .file)]
    else if directory = [points "docs"] then some [(points "b.md", .file)]
    else none
  names_nodup := by
    intro directory entries h
    split_ifs at h <;> cases h <;> decide
  isName := by
    intro directory entries h
    simp only [IsName]
    split_ifs at h <;> cases h <;> decide

/-- The file beside the link and the file in the directory are listed, with the link itself. -/
theorem sourcePaths_lists_sources_sample :
    sourcePaths ⟨[], by simp⟩ sampleTree =
        .ok [[points "a.md"], [points "docs", points "b.md"], [points "link"]] ∧
      ∀ path, path ∈ [[points "a.md"], [points "docs", points "b.md"], [points "link"]] ↔
        sampleTree.IsSource path :=
  ⟨by decide +kernel, ((sourcePaths_lists_sources ⟨[], by simp⟩ sampleTree).1 _
    (by decide +kernel)).1⟩

end RealityCore.SourceScan
