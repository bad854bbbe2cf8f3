import Mathlib.Algebra.Order.BigOperators.Group.List
import Mathlib.Algebra.Order.Group.Nat
import RealityCore.Archive.EntryPath

/-!
# The canonical order of archive entries

`canonicalZipOrder` lists the metadata directory and what is below it, then the files of the
root, then its other directories, each directory before what is below it. A name is sorted
into the children of a prefix by its first component below that prefix, which is what every
later fact about the traversal rests on.
-/

namespace RealityCore.Archive

open Python (Str partition sorted mem_sorted)

/-- One round of the loop of `children`: sort a name below the prefix into the two sets. -/
def addChild (pre : Str) (sets : List Str × List Str) (name : Str) : List Str × List Str :=
  if ¬pre <+: name ∨ name = pre then sets
  else
    let remainder := name.drop pre.length
    match partition remainder '/' with
    | (head, separator, _) =>
      if separator ≠ [] then (sets.1.insert (pre ++ head ++ ['/']), sets.2)
      else if remainder ≠ [] then (sets.1, sets.2.insert (pre ++ remainder))
      else sets

/-- The directories and the files directly below a prefix, each in string order. -/
def children (names : List Str) (pre : Str) : List Str × List Str :=
  let sets := names.foldl (addChild pre) ([], [])
  (sorted sets.1, sorted sets.2)

/-- A child directory below a prefix: a first component and its separator. -/
def IsChildDirectory (pre child : Str) : Prop :=
  ∃ head, '/' ∉ head ∧ child = pre ++ (head ++ ['/'])

/-- A child file below a prefix: the whole remainder, without a separator. -/
def IsChildFile (pre child : Str) : Prop :=
  ∃ rest, rest ≠ [] ∧ '/' ∉ rest ∧ child = pre ++ rest

/-- A name is not below the prefix, below one of its child directories, or a child file. -/
theorem addChild_cases (pre name : Str) (sets : List Str × List Str) :
    ((¬pre <+: name ∨ name = pre) ∧ addChild pre sets name = sets) ∨
    (∃ child, IsChildDirectory pre child ∧ child <+: name ∧
      addChild pre sets name = (sets.1.insert child, sets.2)) ∨
    (IsChildFile pre name ∧ addChild pre sets name = (sets.1, sets.2.insert name)) := by
  by_cases hbelow : ¬pre <+: name ∨ name = pre
  · exact .inl ⟨hbelow, if_pos hbelow⟩
  · obtain ⟨⟨remainder, rfl⟩, hne⟩ : pre <+: name ∧ name ≠ pre := by simpa using hbelow
    have hrem : remainder ≠ [] := by simpa using hne
    refine .inr ?_
    by_cases hsep : '/' ∈ remainder
    · obtain ⟨head, tail, rfl, hhead⟩ := List.eq_append_cons_of_mem hsep
      refine .inl ⟨pre ++ (head ++ ['/']), ⟨head, hhead, rfl⟩, ⟨tail, by simp⟩, ?_⟩
      rw [addChild, if_neg hbelow]
      simp [Python.partition_append hhead]
    · refine .inr ⟨⟨remainder, hrem, hsep, rfl⟩, ?_⟩
      rw [addChild, if_neg hbelow]
      simp [Python.partition_of_notMem hsep, hrem]

/-- A child directory is found below its prefix only through itself. -/
theorem IsChildDirectory.eq_of_common_start {pre name a b : Str} (ha : IsChildDirectory pre a)
    (hb : IsChildDirectory pre b) (han : a <+: name) (hbn : b <+: name) : a = b := by
  obtain ⟨head, hhead, rfl⟩ := ha
  obtain ⟨other, hother, rfl⟩ := hb
  obtain ⟨rest, rfl⟩ := han
  obtain ⟨tail, htail⟩ := hbn
  have h : entries (head ++ '/' :: rest) = entries (other ++ '/' :: tail) := by
    congr 1
    simpa using htail.symm
  rw [entries_directory hhead, entries_directory hother] at h
  rw [(List.cons.inj h).1]

/-- Child directories are below their prefix. -/
theorem IsChildDirectory.below {pre child : Str} (h : IsChildDirectory pre child) :
    pre <+: child ∧ pre.length < child.length := by
  obtain ⟨head, -, rfl⟩ := h
  simp

/-- Child files are below their prefix. -/
theorem IsChildFile.below {pre child : Str} (h : IsChildFile pre child) :
    pre <+: child ∧ child ≠ pre := by
  obtain ⟨rest, hrest, -, rfl⟩ := h
  simpa using hrest

/-- Nothing is below a child directory and a child file at once. -/
theorem IsChildFile.not_below_directory {pre child name : Str} (h : IsChildFile pre name)
    (hc : IsChildDirectory pre child) : ¬child <+: name := by
  obtain ⟨rest, -, hsep, rfl⟩ := h
  obtain ⟨head, -, rfl⟩ := hc
  intro hpre
  have hsub : head ++ ['/'] <+: rest := by simpa using hpre
  exact hsep (hsub.subset (by simp))

/-- A name adds the child directory it is below. -/
theorem mem_addChild_directories {pre name x : Str} {sets : List Str × List Str} :
    x ∈ (addChild pre sets name).1 ↔ x ∈ sets.1 ∨ (IsChildDirectory pre x ∧ x <+: name) := by
  rcases addChild_cases pre name sets with ⟨hout, heq⟩ | ⟨child, hchild, hbelow, heq⟩ | ⟨hfile, heq⟩
  · have hno : ¬(IsChildDirectory pre x ∧ x <+: name) := by
      rintro ⟨hx, hxn⟩
      rcases hout with hout | rfl
      · exact hout (hx.below.1.trans hxn)
      · exact absurd hxn.length_le (by have := hx.below.2; omega)
    simp [heq, hno]
  · have hiff : x = child ↔ IsChildDirectory pre x ∧ x <+: name :=
      ⟨fun h => h ▸ ⟨hchild, hbelow⟩, fun h => h.1.eq_of_common_start hchild h.2 hbelow⟩
    rw [heq, List.mem_insert_iff, or_comm]
    exact or_congr_right hiff
  · have hno : ¬(IsChildDirectory pre x ∧ x <+: name) :=
      fun h => hfile.not_below_directory h.1 h.2
    simp [heq, hno]

/-- A name adds itself when it is a child file. -/
theorem mem_addChild_files {pre name x : Str} {sets : List Str × List Str} :
    x ∈ (addChild pre sets name).2 ↔ x ∈ sets.2 ∨ (IsChildFile pre x ∧ x = name) := by
  rcases addChild_cases pre name sets with ⟨hout, heq⟩ | ⟨child, hchild, hbelow, heq⟩ | ⟨hfile, heq⟩
  · have hno : ¬(IsChildFile pre x ∧ x = name) := by
      rintro ⟨hx, rfl⟩
      exact hout.elim (absurd hx.below.1) hx.below.2
    simp [heq, hno]
  · have hno : ¬(IsChildFile pre x ∧ x = name) := by
      rintro ⟨hx, rfl⟩
      exact hx.not_below_directory hchild hbelow
    simp [heq, hno]
  · have hiff : x = name ↔ IsChildFile pre x ∧ x = name :=
      ⟨fun h => ⟨h ▸ hfile, h⟩, And.right⟩
    rw [heq, List.mem_insert_iff, or_comm]
    exact or_congr_right hiff

/-- The child directories are the first components of names below the prefix. -/
theorem mem_children_directories {names : List Str} {pre x : Str} :
    x ∈ (children names pre).1 ↔ IsChildDirectory pre x ∧ ∃ name ∈ names, x <+: name := by
  have hfold : ∀ sets, x ∈ (names.foldl (addChild pre) sets).1 ↔
      x ∈ sets.1 ∨ (IsChildDirectory pre x ∧ ∃ name ∈ names, x <+: name) := by
    induction names with
    | nil => simp
    | cons name names ih =>
      intro sets
      rw [List.foldl_cons, ih, mem_addChild_directories, List.exists_mem_cons_iff, or_assoc,
        ← and_or_left]
  simpa [children] using hfold ([], [])

/-- The child files are the names directly below the prefix. -/
theorem mem_children_files {names : List Str} {pre x : Str} :
    x ∈ (children names pre).2 ↔ IsChildFile pre x ∧ x ∈ names := by
  have hfold : ∀ sets, x ∈ (names.foldl (addChild pre) sets).2 ↔
      x ∈ sets.2 ∨ (IsChildFile pre x ∧ x ∈ names) := by
    induction names with
    | nil => simp
    | cons name names ih =>
      intro sets
      rw [List.foldl_cons, ih, mem_addChild_files, List.mem_cons, or_assoc, ← and_or_left]
  simpa [children] using hfold ([], [])

/-- Both child lists are strictly ascending. -/
theorem children_pairwise_lt (names : List Str) (pre : Str) :
    (children names pre).1.Pairwise (· < ·) ∧ (children names pre).2.Pairwise (· < ·) := by
  have hfold : ∀ sets : List Str × List Str, sets.1.Nodup ∧ sets.2.Nodup →
      (names.foldl (addChild pre) sets).1.Nodup ∧ (names.foldl (addChild pre) sets).2.Nodup := by
    induction names with
    | nil => exact fun _ h => h
    | cons name names ih =>
      intro sets h
      apply ih
      rcases addChild_cases pre name sets with ⟨-, heq⟩ | ⟨child, -, -, heq⟩ | ⟨-, heq⟩
      · rwa [heq]
      · rw [heq]
        exact ⟨h.1.insert, h.2⟩
      · rw [heq]
        exact ⟨h.1, h.2.insert⟩
  have hnodup := hfold ([], []) ⟨List.nodup_nil, List.nodup_nil⟩
  exact ⟨Python.sorted_pairwise_lt hnodup.1, Python.sorted_pairwise_lt hnodup.2⟩

/-- Child directories extend their prefix and stay within the names, so `visit` ends. -/
theorem visit_decreases {names : List Str} {directory child : Str}
    (h : child ∈ (children names directory).1) :
    (names.map List.length).sum - child.length <
      (names.map List.length).sum - directory.length := by
  obtain ⟨hchild, name, hname, hbelow⟩ := mem_children_directories.mp h
  have hsum : name.length ≤ (names.map List.length).sum :=
    List.le_sum_of_mem (List.mem_map_of_mem hname)
  have := hchild.below.2
  have := hbelow.length_le
  omega

/-- What `visit` appends: every child directory with what is below it, then the files. -/
def visit (names : List Str) (directory : Str) : List Str :=
  ((children names directory).1.attach.flatMap fun ⟨child, _⟩ => child :: visit names child) ++
    (children names directory).2
termination_by (names.map List.length).sum - directory.length
decreasing_by exact visit_decreases ‹_›

/-- `_canonical_zip_order`. -/
def canonicalZipOrder (names : List Str) : List Str :=
  let leading := if META_INF ∈ names then META_INF :: visit names META_INF else []
  let root := children names []
  let others := root.1.filter (· ≠ META_INF)
  leading ++ root.2 ++ others.flatMap fun directory => directory :: visit names directory

theorem visit_eq (names : List Str) (directory : Str) :
    visit names directory =
      ((children names directory).1.flatMap fun child => child :: visit names child) ++
        (children names directory).2 := by
  have hmap := List.flatMap_map Subtype.val (fun child => child :: visit names child)
    (children names directory).1.attach
  rw [List.attach_map_subtype_val] at hmap
  rw [visit, hmap]

end RealityCore.Archive
