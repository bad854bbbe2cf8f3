import RealityCore.Library.PythonDict
import RealityCore.Source.PosixPaths

/-!
# Paths that fold together

The scan keeps a dictionary from the folded path of each file to the file, and reports a file
whose folded path belongs to another one. Only the paths of files are entered, so a file that
folds to a directory of another file goes unnoticed. On a file system that ignores the case, such
a checkout cannot hold both.
-/

namespace RealityCore.SourceScan

open Python (Str Dict)

variable {fold : Str → Str}

/-- Look up a path among the earlier ones: the dictionary afterwards, and the findings. -/
def noteCase (fold : Str → Str) (seen : Dict Str Str) (relativePath : Str) :
    Dict Str Str × List Str :=
  match seen.get? (fold relativePath) with
  | some previous =>
    if previous ≠ relativePath then
      (seen, [finding relativePath ("case-collision with " ++ String.ofList previous)])
    else (seen.set (fold relativePath) relativePath, [])
  | none => (seen.set (fold relativePath) relativePath, [])

/-- The loop of `scan_directory` over the files, with their relative paths. -/
def scanPaths (fold : Str → Str) (isAlnum : Char → Bool) (seen : Dict Str Str) :
    List (Str × SourceFile) → List Str
  | [] => []
  | (relativePath, path) :: rest =>
    let noted := noteCase fold seen relativePath
    noted.2 ++ scanFile isAlnum path relativePath ++ scanPaths fold isAlnum noted.1 rest

/-- The findings of the loop that are about case. -/
def caseCollisions (fold : Str → Str) (seen : Dict Str Str) : List Str → List Str
  | [] => []
  | relativePath :: rest =>
    let noted := noteCase fold seen relativePath
    noted.2 ++ caseCollisions fold noted.1 rest

/-- A fold of paths that keeps separators, makes no new ones, and folds what is between them. -/
structure ComponentWise (fold : Str → Str) : Prop where
  separator_notMem : ∀ part, '/' ∉ part → '/' ∉ fold part
  fold_append : ∀ path rest, fold (path ++ '/' :: rest) = fold path ++ '/' :: fold rest

/-- A checkout that ignores case keeps the files apart, and no file stands where another one needs
a directory. -/
def Faithful (fold : Str → Str) (paths : List Str) : Prop :=
  (∀ p ∈ paths, ∀ q ∈ paths, fold p = fold q → p = q) ∧
    ∀ p ∈ paths, ∀ q ∈ paths, ¬fold p ++ "/".toList <+: fold q

/-- A path is noted without a finding exactly when no other path holds its folded path, and is
then entered itself. -/
theorem noteCase_eq_nil_iff (seen : Dict Str Str) (relativePath : Str) :
    (noteCase fold seen relativePath).2 = [] ↔
      ∀ previous, seen.get? (fold relativePath) = some previous → previous = relativePath := by
  cases h : seen.get? (fold relativePath) with
  | none => simp [noteCase, h]
  | some previous =>
    by_cases heq : previous = relativePath
    · simp [noteCase, h, heq]
    · simp [noteCase, h, heq]

/-- A path that is noted without a finding is entered. -/
theorem noteCase_seen {seen : Dict Str Str} {relativePath : Str}
    (h : (noteCase fold seen relativePath).2 = []) :
    (noteCase fold seen relativePath).1 = seen.set (fold relativePath) relativePath := by
  have hsame := (noteCase_eq_nil_iff seen relativePath).mp h
  cases hget : seen.get? (fold relativePath) with
  | none => simp [noteCase, hget]
  | some previous => simp [noteCase, hget, hsame previous hget]

/-- After a path is entered, another one finds no third path exactly when it found none before and
does not fold as the entered one does. -/
theorem get?_entered_iff {seen : Dict Str Str} {path : Str}
    (hsame : ∀ previous, seen.get? (fold path) = some previous → previous = path) (other : Str) :
    (∀ previous, (seen.set (fold path) path).get? (fold other) = some previous →
        previous = other) ↔
      (∀ previous, seen.get? (fold other) = some previous → previous = other) ∧
        (fold path = fold other → path = other) := by
  rw [Dict.get?_set]
  by_cases hfold : fold other = fold path
  · rw [if_pos hfold, hfold]
    constructor
    · intro h
      have heq : path = other := h path rfl
      exact ⟨fun previous hprevious => (hsame previous hprevious).trans heq, fun _ => heq⟩
    · intro h previous hprevious
      rw [← Option.some.inj hprevious]
      exact h.2 rfl
  · rw [if_neg hfold]
    exact (and_iff_left fun heq => absurd heq.symm hfold).symm

/-- Nothing is reported exactly when the paths fold to different ones, and to none that an
earlier path holds. -/
theorem caseCollisions_eq_nil_iff (seen : Dict Str Str) (paths : List Str) :
    caseCollisions fold seen paths = [] ↔
      (∀ p ∈ paths, ∀ previous, seen.get? (fold p) = some previous → previous = p) ∧
        paths.Pairwise fun p q => fold p = fold q → p = q := by
  induction paths generalizing seen with
  | nil => simp [caseCollisions]
  | cons path rest ih =>
    rw [caseCollisions, List.append_eq_nil_iff, List.forall_mem_cons, List.pairwise_cons,
      ← noteCase_eq_nil_iff, and_assoc]
    apply and_congr_right
    intro hnoted
    have hentered := get?_entered_iff ((noteCase_eq_nil_iff seen path).mp hnoted)
    simp only [ih, noteCase_seen hnoted, hentered, forall_and, and_assoc]

/-- The loop over all paths reports nothing exactly when distinct paths fold to distinct ones. -/
theorem caseCollisions_nil_iff (paths : List Str) :
    caseCollisions fold [] paths = [] ↔ ∀ p ∈ paths, ∀ q ∈ paths, fold p = fold q → p = q := by
  have hempty : ∀ key, Dict.get? ([] : Dict Str Str) key = none := fun _ => rfl
  simp only [caseCollisions_eq_nil_iff, hempty, reduceCtorEq, false_implies, implies_true, true_and]
  constructor
  · intro h p hp q hq
    have hflip : paths.Pairwise (flip fun p q => fold p = fold q → p = q) :=
      h.imp fun hpq heq => (hpq heq.symm).symm
    exact h.forall_of_forall_of_flip (fun _ _ _ => rfl) hflip hp hq
  · exact List.pairwise_of_forall_mem_list

/-- A folded path is cut at a separator only where the path itself is. -/
theorem ComponentWise.cut (hfold : ComponentWise fold) {path left right : Str}
    (h : fold path = left ++ '/' :: right) :
    ∃ dir rest, path = dir ++ '/' :: rest ∧ fold dir = left := by
  induction hlength : path.length using Nat.strong_induction_on generalizing path left with
  | _ length ih =>
    have hmem : '/' ∈ path := by
      by_contra hno
      exact hfold.separator_notMem path hno (h ▸ by simp)
    obtain ⟨first, tail, rfl, hfirst⟩ := List.eq_append_cons_of_mem hmem
    rw [hfold.fold_append] at h
    rcases List.append_eq_append_iff.mp h with ⟨more, hleft, htail⟩ | ⟨more, hhead, htail⟩
    · cases more with
      | nil => exact ⟨first, tail, rfl, by simpa using hleft.symm⟩
      | cons c more =>
        obtain ⟨rfl, hmore⟩ := List.cons.inj htail
        have hshort : tail.length < length := by simp [← hlength]; omega
        obtain ⟨dir, rest, rfl, hdir⟩ := ih tail.length hshort hmore rfl
        exact ⟨first ++ '/' :: dir, rest, by simp, by rw [hfold.fold_append, hdir, hleft]⟩
    · cases more with
      | nil => exact ⟨first, tail, rfl, by simpa using hhead⟩
      | cons c more =>
        obtain ⟨rfl, -⟩ := List.cons.inj htail
        exact absurd (hhead ▸ by simp) (hfold.separator_notMem first hfirst)

/-- A file stands where another one needs a directory exactly when it folds as one of the
directories on the way to that file does. -/
theorem ComponentWise.isPrefix_iff (hfold : ComponentWise fold) (p q : Str) :
    fold p ++ "/".toList <+: fold q ↔ ∃ dir, dir ++ "/".toList <+: q ∧ fold p = fold dir := by
  constructor
  · rintro ⟨right, hright⟩
    rw [List.append_assoc] at hright
    obtain ⟨dir, rest, rfl, hdir⟩ := hfold.cut hright.symm
    exact ⟨dir, ⟨rest, by simp⟩, hdir.symm⟩
  · rintro ⟨dir, ⟨rest, rfl⟩, hdir⟩
    refine ⟨fold rest, ?_⟩
    have := hfold.fold_append dir rest
    simp [hdir, this]

/-- When nothing is reported, the checkout is faithful exactly when no file folds as a directory
of another one does. -/
theorem faithful_iff (hfold : ComponentWise fold) {paths : List Str}
    (h : caseCollisions fold [] paths = []) :
    Faithful fold paths ↔
      ∀ p ∈ paths, ∀ q ∈ paths, ∀ dir, dir ++ "/".toList <+: q → fold p ≠ fold dir := by
  rw [Faithful, and_iff_right ((caseCollisions_nil_iff paths).mp h)]
  refine forall₂_congr fun p _ => forall₂_congr fun q _ => ?_
  rw [hfold.isPrefix_iff]
  simp only [not_exists, not_and, ne_eq]

/-- A scan without a collision stands for a faithful checkout exactly when two files fold to the
same path, so that there is a collision, or no file folds as a directory of another one does. -/
theorem no_collision_faithful_iff (hfold : ComponentWise fold) (paths : List Str) :
    (caseCollisions fold [] paths = [] → Faithful fold paths) ↔
      (∃ p ∈ paths, ∃ q ∈ paths, p ≠ q ∧ fold p = fold q) ∨
        ∀ p ∈ paths, ∀ q ∈ paths, ∀ dir, dir ++ "/".toList <+: q → fold p ≠ fold dir := by
  by_cases h : caseCollisions fold [] paths = []
  · have hdistinct : ¬∃ p ∈ paths, ∃ q ∈ paths, p ≠ q ∧ fold p = fold q := by
      rintro ⟨p, hp, q, hq, hne, heq⟩
      exact hne ((caseCollisions_nil_iff paths).mp h p hp q hq heq)
    rw [or_iff_right hdistinct, ← faithful_iff hfold h]
    exact forall_prop_of_true h
  · refine iff_of_true (fun hnil => absurd hnil h) (.inl ?_)
    rw [caseCollisions_nil_iff] at h
    push Not at h
    obtain ⟨p, hp, q, hq, heq, hne⟩ := h
    exact ⟨p, hp, q, hq, hne, heq⟩

/-- Case folding of an ASCII path. -/
def foldAscii : Str → Str := List.map Char.toLower

/-- Only a separator is folded to a separator. -/
theorem toLower_eq_separator {c : Char} (h : c.toLower = '/') : c = '/' := by
  delta Char.toLower at h
  split at h
  · next hupper =>
    have hlow : 65 ≤ c.val.toNat := hupper.1
    have hhigh : c.val.toNat ≤ 90 := hupper.2
    have hval : (c.val.toNat + 32) % 2 ^ 32 = 47 := congrArg (·.val.toNat) h
    omega
  · exact h

/-- ASCII case folding acts component by component. -/
theorem componentWise_foldAscii : ComponentWise foldAscii where
  separator_notMem := by
    intro part hno hmem
    obtain ⟨c, hc, hlower⟩ := List.mem_map.mp hmem
    exact hno (toLower_eq_separator hlower ▸ hc)
  fold_append := by
    intro path rest
    rw [foldAscii, List.map_append, List.map_cons]
    rfl

/-- A file and a file in a directory do not collide, and no file folds like the directory. -/
theorem no_collision_faithful_iff_pair :
    Faithful foldAscii ["A".toList, "b/c".toList] ∧
      ((∃ p ∈ ["A".toList, "b/c".toList], ∃ q ∈ ["A".toList, "b/c".toList],
          p ≠ q ∧ foldAscii p = foldAscii q) ∨
        ∀ p ∈ ["A".toList, "b/c".toList], ∀ q ∈ ["A".toList, "b/c".toList],
          ∀ dir, dir ++ "/".toList <+: q → foldAscii p ≠ foldAscii dir) := by
  have hfaithful : Faithful foldAscii ["A".toList, "b/c".toList] := by
    unfold Faithful
    decide
  have hiff := no_collision_faithful_iff componentWise_foldAscii ["A".toList, "b/c".toList]
  exact ⟨hfaithful, hiff.mp fun _ => hfaithful⟩

/-- The file `A` and the file `a/b` pass the whole scan, and `A` stands where `a` is needed. -/
theorem scanPaths_misses_directory_collision :
    ComponentWise foldAscii ∧
      scanPaths foldAscii (fun _ => false) []
          [("A".toList, .ofText [] []), ("a/b".toList, .ofText [] [])] = [] ∧
        caseCollisions foldAscii [] ["A".toList, "a/b".toList] = [] ∧
          ¬Faithful foldAscii ["A".toList, "a/b".toList] := by
  refine ⟨componentWise_foldAscii, by decide +kernel, by decide, fun h => ?_⟩
  exact h.2 "A".toList (by decide) "a/b".toList (by decide) (by decide)

end RealityCore.SourceScan
