import Mathlib.Data.Finset.Dedup
import RealityCore.Source.CaseCollisions

/-!
# The collisions that are reported

The dictionary of the scan keeps the first path of each class of paths that fold together. So each
later path of a class is reported once, and its finding names the first one, however the classes
are mixed.
-/

namespace RealityCore.SourceScan

open Python (Str Dict)

variable {fold : Str → Str}

/-- The first of the paths that folds as the given path does. -/
def firstSpelling (fold : Str → Str) (paths : List Str) (path : Str) : Str :=
  (paths.find? fun other => fold other = fold path).getD path

/-- The finding about a path that folds as an earlier one does. -/
def collision (relativePath previous : Str) : Str :=
  finding relativePath ("case-collision with " ++ String.ofList previous)

/-- What is reported about the case of one of the paths. -/
def collisionsOf (fold : Str → Str) (paths : List Str) (path : Str) : List Str :=
  if firstSpelling fold paths path ≠ path then [collision path (firstSpelling fold paths path)]
  else []

/-- The dictionary holds the first path of each class among those before. -/
def Remembers (fold : Str → Str) (seen : Dict Str Str) (front : List Str) : Prop :=
  ∀ key, seen.get? key = front.find? fun path => fold path = key

/-- A path that folds as an earlier one does has its first spelling among the earlier ones. -/
theorem firstSpelling_of_find?_eq_some {front rest : List Str} {path first : Str}
    (h : front.find? (fun other => fold other = fold path) = some first) :
    firstSpelling fold (front ++ path :: rest) path = first := by
  rw [firstSpelling, List.find?_append, h, Option.some_or, Option.getD_some]

/-- A path that folds as no earlier one does is the first of its class. -/
theorem firstSpelling_of_find?_eq_none {front rest : List Str} {path : Str}
    (h : front.find? (fun other => fold other = fold path) = none) :
    firstSpelling fold (front ++ path :: rest) path = path := by
  rw [firstSpelling, List.find?_append, h, Option.none_or, List.find?_cons_of_pos (by simp),
    Option.getD_some]

/-- A round reports a path that is not the first of its class, and remembers one that is. -/
theorem Remembers.noteCase {seen : Dict Str Str} {front : List Str} {path : Str}
    (h : Remembers fold seen front) (rest : List Str) (hnew : path ∉ front) :
    (SourceScan.noteCase fold seen path).2 = collisionsOf fold (front ++ path :: rest) path ∧
      Remembers fold (SourceScan.noteCase fold seen path).1 (front ++ [path]) := by
  have hget := h (fold path)
  cases hfind : front.find? fun other => fold other = fold path with
  | none =>
    rw [hfind] at hget
    have hfirst : firstSpelling fold (front ++ path :: rest) path = path :=
      firstSpelling_of_find?_eq_none hfind
    refine ⟨by simp [SourceScan.noteCase, hget, collisionsOf, hfirst], fun key => ?_⟩
    have hset : (SourceScan.noteCase fold seen path).1 = seen.set (fold path) path := by
      simp [SourceScan.noteCase, hget]
    rw [hset, Dict.get?_set, List.find?_append]
    by_cases hkey : key = fold path
    · rw [if_pos hkey, hkey, hfind, Option.none_or, List.find?_cons_of_pos (by simp)]
    · have hother : ¬fold path = key := fun heq => hkey heq.symm
      rw [if_neg hkey, h key, List.find?_cons_of_neg (by simpa using hother), List.find?_nil,
        Option.or_none]
  | some first =>
    rw [hfind] at hget
    have hne : first ≠ path := fun heq => hnew (heq ▸ List.mem_of_find?_eq_some hfind)
    have hfirst : firstSpelling fold (front ++ path :: rest) path = first :=
      firstSpelling_of_find?_eq_some hfind
    refine ⟨by simp [SourceScan.noteCase, hget, hne, collisionsOf, hfirst, collision], ?_⟩
    have hkeep : (SourceScan.noteCase fold seen path).1 = seen := by
      simp [SourceScan.noteCase, hget, hne]
    intro key
    rw [hkeep, h key, List.find?_append]
    by_cases hkey : fold path = key
    · rw [← hkey, hfind, Option.some_or]
    · rw [List.find?_cons_of_neg (by simpa using hkey), List.find?_nil, Option.or_none]

/-- The loop reports about each path what its first spelling says. -/
theorem Remembers.scanPaths {isAlnum : Char → Bool} {seen : Dict Str Str} {front : List Str}
    {files : List (Str × SourceFile)} (h : Remembers fold seen front)
    (hnodup : (front ++ files.map Prod.fst).Nodup) :
    SourceScan.scanPaths fold isAlnum seen files = files.flatMap fun file =>
      collisionsOf fold (front ++ files.map Prod.fst) file.1 ++
        scanFile isAlnum file.2 file.1 := by
  induction files generalizing seen front with
  | nil => rfl
  | cons file files ih =>
    have hnew : file.1 ∉ front := by
      rw [List.map_cons, List.nodup_append] at hnodup
      exact fun hmem => hnodup.2.2 _ hmem _ List.mem_cons_self rfl
    have happend : front ++ (file :: files).map Prod.fst =
        front ++ [file.1] ++ files.map Prod.fst := by simp
    obtain ⟨hfindings, hseen⟩ := h.noteCase (files.map Prod.fst) hnew
    rw [SourceScan.scanPaths, List.flatMap_cons, ih hseen (happend ▸ hnodup), hfindings, happend]
    simp

/-- The findings about case are those about the paths, one by one. -/
theorem Remembers.caseCollisions {seen : Dict Str Str} {front paths : List Str}
    (h : Remembers fold seen front) (hnodup : (front ++ paths).Nodup) :
    SourceScan.caseCollisions fold seen paths =
      paths.flatMap (collisionsOf fold (front ++ paths)) := by
  induction paths generalizing seen front with
  | nil => rfl
  | cons path paths ih =>
    have hnew : path ∉ front := by
      rw [List.nodup_append] at hnodup
      exact fun hmem => hnodup.2.2 _ hmem _ List.mem_cons_self rfl
    have happend : front ++ path :: paths = front ++ [path] ++ paths := by simp
    obtain ⟨hfindings, hseen⟩ := h.noteCase paths hnew
    rw [SourceScan.caseCollisions, List.flatMap_cons, ih hseen (happend ▸ hnodup), hfindings,
      happend]

/-- The empty dictionary remembers nothing. -/
theorem remembers_nil : Remembers fold [] [] := fun _ => rfl

/-- The findings about each path in turn are those about the paths with another first spelling. -/
theorem flatMap_collisionsOf (paths others : List Str) :
    others.flatMap (collisionsOf fold paths) =
      (others.filter fun path => firstSpelling fold paths path ≠ path).map
        fun path => collision path (firstSpelling fold paths path) := by
  induction others with
  | nil => rfl
  | cons path others ih =>
    rw [List.flatMap_cons, ih]
    by_cases hfirst : firstSpelling fold paths path ≠ path
    · rw [collisionsOf, if_pos hfirst, List.filter_cons_of_pos (by simpa using hfirst)]
      rfl
    · rw [collisionsOf, if_neg hfirst, List.filter_cons_of_neg (by simpa using hfirst)]
      rfl

/-- A path has a first spelling among the paths, which folds as it does and is its own first
spelling. -/
theorem firstSpelling_spec (fold : Str → Str) {paths : List Str} {path : Str} (h : path ∈ paths) :
    firstSpelling fold paths path ∈ paths ∧ fold (firstSpelling fold paths path) = fold path ∧
      firstSpelling fold paths (firstSpelling fold paths path) =
        firstSpelling fold paths path := by
  have hsome : (paths.find? fun other => fold other = fold path).isSome = true :=
    List.find?_isSome.mpr ⟨path, h, decide_eq_true rfl⟩
  obtain ⟨first, hfind⟩ := Option.isSome_iff_exists.mp hsome
  have hfirst : firstSpelling fold paths path = first := by
    rw [firstSpelling, hfind, Option.getD_some]
  have hfold : fold first = fold path := by simpa using List.find?_some hfind
  refine ⟨hfirst ▸ List.mem_of_find?_eq_some hfind, hfirst ▸ hfold, ?_⟩
  rw [hfirst, firstSpelling, hfold, hfind, Option.getD_some]

/-- The paths that are first of their classes fold to each folded path once. -/
theorem length_filter_first {paths : List Str} (h : paths.Nodup) :
    (paths.filter fun path => firstSpelling fold paths path = path).length =
      (paths.map fold).dedup.length := by
  have hsame : ∀ path ∈ paths, ∀ other ∈ paths, fold path = fold other →
      firstSpelling fold paths path = path → firstSpelling fold paths other = other →
        path = other := by
    intro path _ other hother hfold hpath hfirst
    have hspelling : firstSpelling fold paths other = firstSpelling fold paths path := by
      obtain ⟨first, hfind⟩ := Option.isSome_iff_exists.mp
        (List.find?_isSome.mpr ⟨other, hother, decide_eq_true rfl⟩ :
          (paths.find? fun next => fold next = fold other).isSome = true)
      rw [firstSpelling, firstSpelling, hfold, hfind]
      rfl
    rw [← hpath, ← hspelling, hfirst]
  have hnodup :
      ((paths.filter fun path => firstSpelling fold paths path = path).map fold).Nodup := by
    refine List.Nodup.map_on ?_ (h.filter _)
    intro path hpath other hother hfold
    simp only [List.mem_filter, decide_eq_true_eq] at hpath hother
    exact hsame path hpath.1 other hother.1 hfold hpath.2 hother.2
  have hmem : ∀ key, key ∈ (paths.filter fun path =>
      firstSpelling fold paths path = path).map fold ↔ key ∈ (paths.map fold).dedup := by
    intro key
    simp only [List.mem_dedup, List.mem_map, List.mem_filter, decide_eq_true_eq]
    constructor
    · rintro ⟨path, ⟨hpath, -⟩, hkey⟩
      exact ⟨path, hpath, hkey⟩
    · rintro ⟨path, hpath, rfl⟩
      obtain ⟨hfirst, hfold, hself⟩ := firstSpelling_spec fold hpath
      exact ⟨_, ⟨hfirst, hself⟩, hfold⟩
  have hperm := (List.perm_ext_iff_of_nodup hnodup (List.nodup_dedup _)).mpr hmem
  rw [← hperm.length_eq, List.length_map]

/-- For distinct paths the loop reports each path that is not the first of its class, once and with
that first path, so there are as many findings as there are more paths than folded paths. -/
theorem scanPaths_reports_collisions (fold : Str → Str) (isAlnum : Char → Bool)
    (files : List (Str × SourceFile)) (h : (files.map Prod.fst).Nodup) :
    scanPaths fold isAlnum [] files = files.flatMap (fun file =>
        collisionsOf fold (files.map Prod.fst) file.1 ++ scanFile isAlnum file.2 file.1) ∧
      caseCollisions fold [] (files.map Prod.fst) =
        ((files.map Prod.fst).filter fun path =>
          firstSpelling fold (files.map Prod.fst) path ≠ path).map
            (fun path => collision path (firstSpelling fold (files.map Prod.fst) path)) ∧
      (caseCollisions fold [] (files.map Prod.fst)).length +
        ((files.map Prod.fst).map fold).dedup.length = files.length := by
  have hloop : caseCollisions fold [] (files.map Prod.fst) =
      (files.map Prod.fst).flatMap (collisionsOf fold (files.map Prod.fst)) :=
    remembers_nil.caseCollisions h
  rw [flatMap_collisionsOf] at hloop
  refine ⟨remembers_nil.scanPaths h, hloop, ?_⟩
  have hsplit := List.length_eq_length_filter_add (l := files.map Prod.fst) fun path =>
    decide (firstSpelling fold (files.map Prod.fst) path = path)
  rw [List.length_map] at hsplit
  rw [hloop, List.length_map, ← length_filter_first h, Nat.add_comm, hsplit]
  simp only [decide_not]

/-- Two classes of two paths that are mixed. -/
def mixedFiles : List (Str × SourceFile) :=
  [("a".toList, .ofText [] []), ("B".toList, .ofText [] []), ("A".toList, .ofText [] []),
    ("b".toList, .ofText [] [])]

/-- The later path of each class is reported with the first one. -/
theorem scanPaths_reports_collisions_mixed :
    caseCollisions foldAscii [] (mixedFiles.map Prod.fst) =
        [collision "A".toList "a".toList, collision "b".toList "B".toList] ∧
      (caseCollisions foldAscii [] (mixedFiles.map Prod.fst)).length +
        ((mixedFiles.map Prod.fst).map foldAscii).dedup.length = mixedFiles.length :=
  ⟨by decide, (scanPaths_reports_collisions foldAscii (fun _ => false) mixedFiles (by decide)).2.2⟩

end RealityCore.SourceScan
