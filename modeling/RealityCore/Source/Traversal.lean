import RealityCore.Library.Worklist
import RealityCore.Source.SourcePaths

/-!
# What the walk over a directory tree returns

A walk that returns has visited each directory that can be opened, once, and lists the symbolic
links and the files in them, each once and in the order of their texts. It is refused when there
are too many of either. What lies behind a symbolic link has no influence on it.
-/

namespace RealityCore.SourceScan

open Outcome (bind_eq_ok_iff guard_eq_ok_iff)
open Python (Text)
open Worklist (Visits Reaches Deterministic IsTree)

namespace Tree

/-- The directories that are reached from the root through directories, none of them excluded. -/
inductive Opens (tree : Tree) : List Text → Prop
  | root : tree.Opens []
  | child {directory : List Text} {entries : List (Text × Kind)} {name : Text} :
      tree.Opens directory → tree.scandir directory = some entries →
        (name, .directory) ∈ entries → name ∉ EXCLUDED_DIRECTORIES →
          tree.Opens (directory ++ [name])

/-- The path of an entry of that kind in a directory that is reached. -/
def IsEntry (tree : Tree) (path : List Text) (kind : Kind) : Prop :=
  ∃ directory entries name, tree.Opens directory ∧ tree.scandir directory = some entries ∧
    (name, kind) ∈ entries ∧ path = directory ++ [name]

/-- A symbolic link or a regular file in a directory that is reached. -/
def IsSource (tree : Tree) (path : List Text) : Prop :=
  tree.IsEntry path .symlink ∨ tree.IsEntry path .file

end Tree

/-- The entries that the walk goes into. -/
def isWalked (entry : Text × Kind) : Bool :=
  entry.2 = .directory && !EXCLUDED_DIRECTORIES.contains entry.1

/-- The walk goes into the directories that are not excluded. -/
theorem isWalked_iff {entry : Text × Kind} :
    isWalked entry = true ↔ entry.2 = .directory ∧ entry.1 ∉ EXCLUDED_DIRECTORIES := by
  simp [isWalked]

/-- The entries that the walk lists. -/
def isListed (entry : Text × Kind) : Bool := entry.2 = .symlink || entry.2 = .file

/-- The path of an entry. -/
def entryPath (directory : List Text) (entry : Text × Kind) : List Text := directory ++ [entry.1]

/-- The directories that a visit leaves on the stack, from the top. -/
def pushedBelow (directory : List Text) (entries : List (Text × Kind)) : List (List Text) :=
  ((entries.filter isWalked).map (entryPath directory)).reverse

/-- The paths that a visit adds. -/
def listedBelow (directory : List Text) (entries : List (Text × Kind)) : List (List Text) :=
  (entries.filter isListed).map (entryPath directory)

/-- What the visit of a directory pushes and adds. -/
def Expands (tree : Tree) (directory : List Text) (pushed here : List (List Text)) : Prop :=
  ∃ entries, tree.scandir directory = some entries ∧
    pushed = pushedBelow directory (sortEntries entries) ∧
      here = listedBelow directory (sortEntries entries)

variable {root : ResolvedPath} {tree : Tree} {directory : List Text} {depth : ℕ}
  {state result : Walk}

/-- One entry pushes its path, or adds it, or neither. -/
theorem visitEntry_eq_ok {entry : Text × Kind}
    (h : visitEntry directory depth state entry = .ok result) :
    result.stack.map Prod.fst = pushedBelow directory [entry] ++ state.stack.map Prod.fst ∧
      result.paths = state.paths ++ listedBelow directory [entry] := by
  obtain ⟨name, kind⟩ := entry
  rw [visitEntry] at h
  split at h
  · cases h
  · cases kind with
    | symlink => cases h; simp [pushedBelow, listedBelow, isWalked, isListed, entryPath]
    | directory =>
      by_cases hname : name ∈ EXCLUDED_DIRECTORIES
      · simp only [hname, not_true, if_false] at h
        cases h
        simp [pushedBelow, listedBelow, isWalked, isListed, hname]
      · simp only [hname, not_false_eq_true, if_true, guard_eq_ok_iff] at h
        cases h.2
        simp [pushedBelow, listedBelow, isWalked, isListed, entryPath, hname]
    | file => cases h; simp [pushedBelow, listedBelow, isWalked, isListed, entryPath]
    | other => cases h; simp [pushedBelow, listedBelow, isWalked, isListed]

/-- The entries of a directory push the paths to visit and add those to list. -/
theorem foldlM_visitEntry_eq_ok {entries : List (Text × Kind)}
    (h : entries.foldlM (visitEntry directory depth) state = .ok result) :
    result.stack.map Prod.fst = pushedBelow directory entries ++ state.stack.map Prod.fst ∧
      result.paths = state.paths ++ listedBelow directory entries := by
  induction entries generalizing state with
  | nil =>
    cases h
    simp [pushedBelow, listedBelow]
  | cons entry entries ih =>
    rw [List.foldlM_cons, bind_eq_ok_iff] at h
    obtain ⟨next, hentry, hrest⟩ := h
    obtain ⟨hstack, hpaths⟩ := visitEntry_eq_ok hentry
    obtain ⟨hstack', hpaths'⟩ := ih hrest
    have hcons : entry :: entries = [entry] ++ entries := rfl
    rw [hstack', hpaths', hstack, hpaths, hcons]
    simp only [pushedBelow, listedBelow, List.filter_append, List.map_append, List.reverse_append,
      List.append_assoc, and_self]

/-- A visit that succeeds expands the directory. -/
theorem visitDirectory_eq_ok
    (h : visitDirectory root tree directory depth state = .ok result) :
    ∃ pushed here, Expands tree directory pushed here ∧
      result.stack.map Prod.fst = pushed ++ state.stack.map Prod.fst ∧
        result.paths = state.paths ++ here := by
  rw [visitDirectory] at h
  split at h
  · cases h
  · next entries hentries =>
    obtain ⟨hstack, hpaths⟩ := foldlM_visitEntry_eq_ok (guard_eq_ok_iff.mp h).2
    exact ⟨_, _, ⟨entries, hentries, rfl, rfl⟩, hstack, hpaths⟩

/-- A walk that returns goes through the rounds of a loop over its stack, and no more of them than
are admitted. -/
theorem walk_visits {remaining : ℕ} {state : Walk} {paths : List (List Text)}
    (h : walk root tree remaining state = .ok paths) :
    ∃ visited found, Visits (Expands tree) (state.stack.map Prod.fst) visited found ∧
      visited.length ≤ remaining ∧ paths = state.paths ++ found := by
  induction remaining generalizing state with
  | zero =>
    obtain ⟨_ | ⟨top, stack⟩, listed⟩ := state
    · cases h
      exact ⟨[], [], .done, le_rfl, by simp⟩
    · cases h
  | succ remaining ih =>
    obtain ⟨_ | ⟨⟨directory, depth⟩, stack⟩, listed⟩ := state
    · cases h
      exact ⟨[], [], .done, Nat.zero_le _, by simp⟩
    · rw [walk, bind_eq_ok_iff] at h
      obtain ⟨next, hvisit, hrest⟩ := h
      obtain ⟨pushed, here, hexpands, hstack, hpaths⟩ := visitDirectory_eq_ok hvisit
      obtain ⟨visited, found, hvisits, hlength, hresult⟩ := ih hrest
      rw [hstack] at hvisits
      refine ⟨directory :: visited, here ++ found, .round hexpands hvisits, ?_, ?_⟩
      · exact Nat.succ_le_succ hlength
      · rw [hresult, hpaths, List.append_assoc]

/-- The walked entries of a directory, by their names. -/
theorem mem_pushedBelow {entries : List (Text × Kind)} {path : List Text} :
    path ∈ pushedBelow directory (sortEntries entries) ↔
      ∃ name, (name, .directory) ∈ entries ∧ name ∉ EXCLUDED_DIRECTORIES ∧
        path = directory ++ [name] := by
  simp only [pushedBelow, List.mem_reverse, List.mem_map, List.mem_filter, sortEntries,
    List.mem_insertionSort, isWalked_iff, entryPath, Prod.exists]
  constructor
  · rintro ⟨name, _, ⟨hmem, rfl, hname⟩, rfl⟩
    exact ⟨name, hmem, hname, rfl⟩
  · rintro ⟨name, hmem, hname, rfl⟩
    exact ⟨name, _, ⟨hmem, rfl, hname⟩, rfl⟩

/-- The listed entries of a directory, by their names. -/
theorem mem_listedBelow {entries : List (Text × Kind)} {path : List Text} :
    path ∈ listedBelow directory (sortEntries entries) ↔
      ∃ name, ((name, .symlink) ∈ entries ∨ (name, .file) ∈ entries) ∧
        path = directory ++ [name] := by
  simp only [listedBelow, List.mem_map, List.mem_filter, sortEntries, List.mem_insertionSort,
    isListed, entryPath, Bool.or_eq_true, decide_eq_true_eq, Prod.exists]
  constructor
  · rintro ⟨name, _, ⟨hmem, rfl | rfl⟩, rfl⟩
    · exact ⟨name, .inl hmem, rfl⟩
    · exact ⟨name, .inr hmem, rfl⟩
  · rintro ⟨name, hmem | hmem, rfl⟩
    · exact ⟨name, _, ⟨hmem, .inl rfl⟩, rfl⟩
    · exact ⟨name, _, ⟨hmem, .inr rfl⟩, rfl⟩

/-- Selected entries of a directory have distinct paths. -/
theorem nodup_entryPaths {entries : List (Text × Kind)} (h : (entries.map Prod.fst).Nodup)
    (select : Text × Kind → Bool) :
    (((sortEntries entries).filter select).map (entryPath directory)).Nodup := by
  have hinjective : Function.Injective fun name : Text => directory ++ [name] := by
    intro name other heq
    simpa using heq
  have hsorted : ((sortEntries entries).map Prod.fst).Nodup :=
    ((List.perm_insertionSort _ entries).map Prod.fst).nodup_iff.mpr h
  have hnames : (((sortEntries entries).filter select).map Prod.fst).Nodup :=
    hsorted.sublist (List.filter_sublist.map Prod.fst)
  have hmap := hnames.map hinjective
  rwa [List.map_map] at hmap

/-- A directory expands in one way. -/
theorem expands_deterministic (tree : Tree) : Deterministic (Expands tree) := by
  rintro directory _ _ _ _ ⟨entries, hentries, rfl, rfl⟩ ⟨entries', hentries', rfl, rfl⟩
  rw [hentries] at hentries'
  obtain rfl := Option.some.inj hentries'
  exact ⟨rfl, rfl⟩

/-- Paths without their last name make the directories a tree. -/
theorem expands_isTree (tree : Tree) :
    IsTree (Expands tree) [] List.dropLast List.dropLast where
  pushed_nodup := by
    rintro directory _ _ ⟨entries, hentries, rfl, rfl⟩
    rw [pushedBelow, List.nodup_reverse]
    exact nodup_entryPaths (tree.names_nodup _ _ hentries) isWalked
  parent_eq := by
    rintro directory _ _ next ⟨entries, -, rfl, rfl⟩ hnext
    obtain ⟨name, -, -, rfl⟩ := mem_pushedBelow.mp hnext
    simp
  here_nodup := by
    rintro directory _ _ ⟨entries, hentries, rfl, rfl⟩
    exact nodup_entryPaths (tree.names_nodup _ _ hentries) isListed
  owner_eq := by
    rintro directory _ _ path ⟨entries, -, rfl, rfl⟩ hpath
    obtain ⟨name, -, rfl⟩ := mem_listedBelow.mp hpath
    simp

/-- The directories that the loop reaches from the root are those that are opened. -/
theorem reaches_iff_opens (directory : List Text) :
    Reaches (Expands tree) [[]] directory ↔ tree.Opens directory := by
  constructor
  · intro h
    induction h with
    | start hmem => rw [List.mem_singleton.mp hmem]; exact .root
    | child _ hexpands hmem ih =>
      obtain ⟨entries, hentries, rfl, -⟩ := hexpands
      obtain ⟨name, hname, hincluded, rfl⟩ := mem_pushedBelow.mp hmem
      exact .child ih hentries hname hincluded
  · intro h
    induction h with
    | root => exact .start (List.mem_singleton.mpr rfl)
    | child _ hentries hname hincluded ih =>
      exact .child ih ⟨_, hentries, rfl, rfl⟩ (mem_pushedBelow.mpr ⟨_, hname, hincluded, rfl⟩)

/-- What the directories hold that the loop reaches from the root are the sources. -/
theorem held_iff_isSource (path : List Text) :
    (∃ directory pushed here, Reaches (Expands tree) [[]] directory ∧
        Expands tree directory pushed here ∧ path ∈ here) ↔ tree.IsSource path := by
  simp only [reaches_iff_opens]
  constructor
  · rintro ⟨directory, _, _, hopens, ⟨entries, hentries, rfl, rfl⟩, hpath⟩
    obtain ⟨name, hname | hname, rfl⟩ := mem_listedBelow.mp hpath
    · exact .inl ⟨directory, entries, name, hopens, hentries, hname, rfl⟩
    · exact .inr ⟨directory, entries, name, hopens, hentries, hname, rfl⟩
  · rintro (⟨directory, entries, name, hopens, hentries, hname, rfl⟩ |
      ⟨directory, entries, name, hopens, hentries, hname, rfl⟩)
    · exact ⟨directory, _, _, hopens, ⟨entries, hentries, rfl, rfl⟩,
        mem_listedBelow.mpr ⟨name, .inl hname, rfl⟩⟩
    · exact ⟨directory, _, _, hopens, ⟨entries, hentries, rfl, rfl⟩,
        mem_listedBelow.mpr ⟨name, .inr hname, rfl⟩⟩

/-- A walk from the root that returns lists each source once, and opens few enough directories. -/
theorem walk_root_eq_ok {remaining : ℕ} {paths : List (List Text)}
    (h : walk root tree remaining ⟨[([], 0)], []⟩ = .ok paths) :
    (∀ path, path ∈ paths ↔ tree.IsSource path) ∧ paths.Nodup ∧
      ∃ visited : List (List Text), visited.length ≤ remaining ∧ ∀ directory, tree.Opens directory →
        directory ∈ visited := by
  obtain ⟨visited, found, hvisits, hlength, rfl⟩ := walk_visits h
  have hdet := expands_deterministic tree
  have hnodup := hvisits.visited_nodup (expands_isTree tree)
  refine ⟨fun path => ?_, hvisits.found_nodup (expands_isTree tree) hnodup, visited, hlength, ?_⟩
  · rw [← held_iff_isSource]
    exact hvisits.mem_found_iff hdet path
  · intro directory hopens
    exact (hvisits.mem_visited_iff hdet directory).mpr ((reaches_iff_opens directory).mpr hopens)

end RealityCore.SourceScan
