import RealityCore.Source.TrackedPaths

/-!
# The spelling of admitted paths

`checkPath` looks for unsafe components among those of `pathlib`, from which empty components and
those of a single dot are gone already. So it refuses `..` wherever it stands, and an admitted
path never leads above its root, but a path need not be spelled as its components are.
-/

namespace RealityCore.SourceScan

open Outcome (guard_eq_ok_iff)
open Python (Str Text points ofStr mem_splitOn_iff)

/-- `(root / relativePath).parts`, below the root of the file system. -/
def joinPath (root : ResolvedPath) (relativePath : Str) : List Text :=
  match pathAnchor relativePath with
  | [] => root.parts ++ (pathParts relativePath).map ofStr
  | anchor => ((pathParts relativePath).drop anchor.length).map ofStr

/-- A component that a canonical path does not have. -/
def IsUnsafeComponent (part : Str) : Prop := part = [] ∨ part = ".".toList ∨ part = "..".toList

/-- A path strictly below a root: components follow those of the root, and none leads up. -/
def StrictlyBelow (root path : List Text) : Prop :=
  ∃ rest, path = root ++ rest ∧ rest ≠ [] ∧ points ".." ∉ rest

/-- A spelling without a doubled separator, a separator at its end or a single dot as a part. -/
def IsCanonical (relativePath : Str) : Prop :=
  ¬"//".toList <:+: relativePath ∧ relativePath.getLast? ≠ some '/' ∧
    ¬"/./".toList <:+: '/' :: (relativePath ++ ['/'])

/-- A text has one more piece than separators. -/
theorem length_splitOn {α : Type*} [DecidableEq α] (separator : α) (text : List α) :
    (text.splitOn separator).length = text.count separator + 1 := by
  induction text with
  | nil => rfl
  | cons c text ih =>
    rw [List.splitOn_cons_eq_if_modifyHead, List.count_cons]
    by_cases hc : c = separator
    · simp [hc, ih]
    · simp [hc, ih]

/-- An admitted path does not start with a separator and has no component that leads up. -/
theorem relative_of_checkPath {relativePath : Str} (h : checkPath relativePath = .ok ()) :
    relativePath.head? ≠ some '/' ∧ "..".toList ∉ pathParts relativePath := by
  simp only [checkPath, guard_eq_ok_iff, not_or, List.any_eq_true, decide_eq_true_eq, not_exists,
    not_and] at h
  obtain ⟨-, -, ⟨-, hhead, -⟩, hparts, -⟩ := h
  exact ⟨hhead, fun hmem => hparts _ hmem (by simp)⟩

/-- A path that does not start with a separator has no anchor. -/
theorem pathAnchor_eq_nil {path : Str} (h : path.head? ≠ some '/') : pathAnchor path = [] := by
  unfold pathAnchor
  split <;> simp_all

/-- The components of an admitted path are its pieces but the empty ones and the single dots. -/
theorem pathParts_of_checkPath {relativePath : Str} (h : checkPath relativePath = .ok ()) :
    pathParts relativePath =
      (relativePath.splitOn '/').filter fun part => part ≠ [] ∧ part ≠ ".".toList := by
  rw [pathParts, pathAnchor_eq_nil (relative_of_checkPath h).1, List.nil_append]

/-- No piece of an admitted path leads up. -/
theorem up_notMem_splitOn {relativePath : Str} (h : checkPath relativePath = .ok ()) :
    "..".toList ∉ relativePath.splitOn '/' := by
  intro hmem
  refine (relative_of_checkPath h).2 ?_
  rw [pathParts_of_checkPath h, List.mem_filter]
  exact ⟨hmem, by decide⟩

/-- An admitted path never leads above its root. -/
theorem joinPath_of_checkPath {relativePath : Str} (h : checkPath relativePath = .ok ())
    (root : ResolvedPath) :
    joinPath root relativePath = root.parts ++ (pathParts relativePath).map ofStr ∧
      points ".." ∉ (pathParts relativePath).map ofStr := by
  refine ⟨?_, fun hup => ?_⟩
  · rw [joinPath, pathAnchor_eq_nil (relative_of_checkPath h).1]
  · obtain ⟨part, hpart, heq⟩ := List.mem_map.mp hup
    exact (relative_of_checkPath h).2 (Python.ofStr_injective heq ▸ hpart)

/-- The pieces of an admitted path are safe components exactly when all of them are kept. -/
theorem safe_pieces_iff {relativePath : Str} (h : checkPath relativePath = .ok ()) :
    (∀ part ∈ relativePath.splitOn '/', ¬IsUnsafeComponent part) ↔
      (pathParts relativePath).length = relativePath.count '/' + 1 := by
  rw [← length_splitOn, pathParts_of_checkPath h, List.length_filter_eq_length_iff]
  refine forall₂_congr fun part hpart => ?_
  have hup : part ≠ "..".toList := fun heq => up_notMem_splitOn h (heq ▸ hpart)
  rw [IsUnsafeComponent, not_or, not_or, decide_eq_true_eq]
  exact ⟨fun hsafe => ⟨hsafe.1, hsafe.2.1⟩, fun hkept => ⟨hkept.1, hkept.2, hup⟩⟩

/-- An admitted path has no empty piece exactly when its separators are neither doubled nor last. -/
theorem nil_mem_splitOn_iff {relativePath : Str} (h : checkPath relativePath = .ok ()) :
    [] ∈ relativePath.splitOn '/' ↔
      "//".toList <:+: relativePath ∨ relativePath.getLast? = some '/' := by
  have hhead := (relative_of_checkPath h).1
  have hfront : ¬['/', '/'] <+: '/' :: (relativePath ++ ['/']) := by
    cases relativePath with
    | nil => exact absurd rfl (ne_nil_of_checkPath h)
    | cons c rest => simpa [eq_comm] using hhead
  have hend : ['/', '/'] <:+ relativePath ++ ['/'] ↔ relativePath.getLast? = some '/' := by
    rw [← List.singleton_append, List.suffix_append_self_iff,
      List.singleton_suffix_iff_getLast?_eq_some]
  rw [mem_splitOn_iff List.not_mem_nil, List.nil_append, List.infix_cons_iff, or_iff_right hfront,
    List.infix_concat_iff, hend, or_comm]
  rfl

/-- The pieces of an admitted path are safe exactly when its spelling is canonical. -/
theorem safe_pieces_iff_isCanonical {relativePath : Str} (h : checkPath relativePath = .ok ()) :
    (∀ part ∈ relativePath.splitOn '/', ¬IsUnsafeComponent part) ↔ IsCanonical relativePath := by
  have hdot : ".".toList ∈ relativePath.splitOn '/' ↔
      "/./".toList <:+: '/' :: (relativePath ++ ['/']) := mem_splitOn_iff (by decide)
  rw [IsCanonical, ← hdot, ← and_assoc, ← not_or, ← nil_mem_splitOn_iff h]
  constructor
  · intro hsafe
    exact ⟨fun hmem => hsafe _ hmem (.inl rfl), fun hmem => hsafe _ hmem (.inr (.inl rfl))⟩
  · rintro ⟨hempty, hsingle⟩ part hpart (rfl | rfl | rfl)
    · exact hempty hpart
    · exact hsingle hpart
    · exact up_notMem_splitOn h hpart

/-- The pieces of an admitted path are safe components, and it leads strictly below every root,
exactly when its spelling is canonical, which is when it has one more component than separators. -/
theorem checkPath_canonical_iff {relativePath : Str} (h : checkPath relativePath = .ok ()) :
    (((∀ part ∈ relativePath.splitOn '/', ¬IsUnsafeComponent part) ∧
        ∀ root : ResolvedPath, StrictlyBelow root.parts (joinPath root relativePath)) ↔
      IsCanonical relativePath) ∧
      (IsCanonical relativePath ↔
        (pathParts relativePath).length = relativePath.count '/' + 1) := by
  have hlength := safe_pieces_iff h
  rw [safe_pieces_iff_isCanonical h] at hlength ⊢
  refine ⟨and_iff_left_of_imp fun hcanonical root => ?_, hlength⟩
  obtain ⟨hjoin, hup⟩ := joinPath_of_checkPath h root
  refine ⟨_, hjoin, fun hnil => ?_, hup⟩
  have hcount := hlength.mp hcanonical
  rw [List.map_eq_nil_iff.mp hnil] at hcount
  exact absurd hcount (Nat.succ_ne_zero _).symm

/-- A path of two components is canonical, so that its pieces are safe and it stays below roots. -/
theorem checkPath_canonical_iff_file :
    IsCanonical "docs/a.md".toList ∧
      (∀ part ∈ ("docs/a.md".toList).splitOn '/', ¬IsUnsafeComponent part) ∧
        ∀ root : ResolvedPath, StrictlyBelow root.parts (joinPath root "docs/a.md".toList) := by
  have hchecked : checkPath "docs/a.md".toList = .ok () := by decide
  obtain ⟨hsafe, hlength⟩ := checkPath_canonical_iff hchecked
  have hcanonical := hlength.mpr (by decide)
  exact ⟨hcanonical, hsafe.mpr hcanonical⟩

/-- A doubled separator, a leading dot and a trailing separator are admitted, and so is the path
that joins to the root itself. -/
theorem checkPath_admits_hidden_components :
    (checkPath "a//b".toList = .ok () ∧ [] ∈ ("a//b".toList).splitOn '/') ∧
      (checkPath "./a".toList = .ok () ∧ ".".toList ∈ ("./a".toList).splitOn '/') ∧
      (checkPath "a/".toList = .ok () ∧ [] ∈ ("a/".toList).splitOn '/') ∧
      checkPath ".".toList = .ok () ∧
        ∀ root : ResolvedPath, ¬StrictlyBelow root.parts (joinPath root ".".toList) := by
  refine ⟨⟨by decide, by decide⟩, ⟨by decide, by decide⟩, ⟨by decide, by decide⟩, by decide, ?_⟩
  rintro root ⟨rest, hjoin, hne, -⟩
  have hroot : joinPath root ".".toList = root.parts ++ [] := rfl
  exact hne (List.append_cancel_left (hjoin.symm.trans hroot))

end RealityCore.SourceScan
