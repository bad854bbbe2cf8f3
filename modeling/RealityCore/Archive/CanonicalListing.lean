import RealityCore.Archive.ZipOrder

/-!
# What the canonical listing holds, and in which order

The listing holds the file names and every directory that some name implies, in the strict
order `Before`. A list of names is therefore its own canonical listing exactly when it is
sorted by that order and closed under parent directories.
-/

namespace RealityCore.Archive

open Python (Str)

/-- The entries that names give rise to: their files, and every directory on the way. -/
def Implied (names : List Str) (x : Str) : Prop :=
  if IsDirectory x then ∃ name ∈ names, x <+: name else x ∈ names

/-- The directories on the way to a name are implied. -/
theorem implied_of_prefix {names : List Str} {place name : Str} (hplace : IsDirectory place)
    (hname : name ∈ names) (hpre : place <+: name) : Implied names place := by
  rw [Implied, if_pos hplace]
  exact ⟨name, hname, hpre⟩

/-- Names are implied. -/
theorem implied_of_mem {names : List Str} {name : Str} (h : name ∈ names) :
    Implied names name := by
  by_cases hdir : IsDirectory name
  · exact implied_of_prefix hdir h List.prefix_rfl
  · rwa [Implied, if_neg hdir]

/-- Whatever is implied leads to a name. -/
theorem Implied.exists_name {names : List Str} {x : Str} (h : Implied names x) :
    ∃ name ∈ names, x <+: name := by
  rw [Implied] at h
  split at h
  · exact h
  · exact ⟨x, h, List.prefix_rfl⟩

/-- Child directories end in their separator. -/
theorem IsChildDirectory.isDirectory {pre child : Str} (h : IsChildDirectory pre child) :
    IsDirectory child := by
  obtain ⟨head, -, rfl⟩ := h
  simp [IsDirectory, ← List.append_assoc]

/-- Child files do not end in a separator. -/
theorem IsChildFile.not_isDirectory {pre child : Str} (h : IsChildFile pre child) :
    ¬IsDirectory child := by
  obtain ⟨rest, hrest, hsep, rfl⟩ := h
  rw [IsDirectory, List.getLast?_append_of_ne_nil _ hrest]
  exact fun hlast => hsep (List.mem_of_getLast? hlast)

/-- Child directories are implied. -/
theorem implied_of_mem_directories {names : List Str} {pre child : Str}
    (h : child ∈ (children names pre).1) : IsDirectory child ∧ Implied names child := by
  obtain ⟨hchild, name, hname, hbelow⟩ := mem_children_directories.mp h
  exact ⟨hchild.isDirectory, implied_of_prefix hchild.isDirectory hname hbelow⟩

/-- What is implied below a prefix is a child file or is reached through a child directory. -/
theorem child_of_implied {names : List Str} {pre x : Str} (h : Implied names x) (hpre : pre <+: x)
    (hne : x ≠ pre) :
    (∃ child ∈ (children names pre).1, child <+: x) ∨ x ∈ (children names pre).2 := by
  obtain ⟨rest, rfl⟩ := hpre
  by_cases hsep : '/' ∈ rest
  · obtain ⟨head, tail, rfl, hhead⟩ := List.eq_append_cons_of_mem hsep
    have hbelow : pre ++ (head ++ ['/']) <+: pre ++ (head ++ '/' :: tail) := ⟨tail, by simp⟩
    obtain ⟨name, hname, hx⟩ := h.exists_name
    exact .inl ⟨_, mem_children_directories.mpr ⟨⟨head, hhead, rfl⟩, name, hname, hbelow.trans hx⟩,
      hbelow⟩
  · have hfile : IsChildFile pre (pre ++ rest) := ⟨rest, by simpa using hne, hsep, rfl⟩
    rw [Implied, if_neg hfile.not_isDirectory] at h
    exact .inr (mem_children_files.mpr ⟨hfile, h⟩)

/-- A visit lists what is implied strictly below its directory. -/
theorem mem_visit {names : List Str} {directory x : Str} :
    x ∈ visit names directory ↔ Implied names x ∧ directory <+: x ∧ x ≠ directory := by
  induction directory using visit.induct names with
  | case1 directory ih =>
    rw [visit_eq, List.mem_append, List.mem_flatMap]
    constructor
    · rintro (⟨child, hchild, hx⟩ | hx)
      · have hbelow := (mem_children_directories.mp hchild).1.below
        rcases List.mem_cons.mp hx with rfl | hx
        · exact ⟨(implied_of_mem_directories hchild).2, hbelow.1, fun h => by simp [h] at hbelow⟩
        · obtain ⟨himp, hpre, -⟩ := (ih child hchild).mp hx
          refine ⟨himp, hbelow.1.trans hpre, fun h => ?_⟩
          have := (h ▸ hpre).length_le
          omega
      · obtain ⟨hfile, hname⟩ := mem_children_files.mp hx
        exact ⟨implied_of_mem hname, hfile.below⟩
    · rintro ⟨himp, hpre, hne⟩
      rcases child_of_implied himp hpre hne with ⟨child, hchild, hx⟩ | hx
      · refine .inl ⟨child, hchild, List.mem_cons.mpr ?_⟩
        by_cases heq : x = child
        · exact .inl heq
        · exact .inr ((ih child hchild).mpr ⟨himp, hx, heq⟩)
      · exact .inr hx

/-- A directory and its visit list what is implied from the directory on. -/
theorem mem_cons_visit {names : List Str} {directory x : Str} (h : Implied names directory) :
    x ∈ directory :: visit names directory ↔ Implied names x ∧ directory <+: x := by
  rw [List.mem_cons, mem_visit]
  constructor
  · rintro (rfl | ⟨himp, hpre, -⟩)
    · exact ⟨h, List.prefix_rfl⟩
    · exact ⟨himp, hpre⟩
  · rintro ⟨himp, hpre⟩
    by_cases heq : x = directory
    · exact .inl heq
    · exact .inr ⟨himp, hpre, heq⟩

theorem isChildDirectory_META_INF : IsChildDirectory [] META_INF :=
  ⟨"META-INF".toList, by decide, by decide⟩

/-- The canonical listing holds what is implied; without its own entry the metadata directory
is left out with everything below it. -/
theorem mem_canonicalZipOrder {names : List Str} {x : Str} :
    x ∈ canonicalZipOrder names ↔
      x ≠ [] ∧ Implied names x ∧ (META_INF <+: x → META_INF ∈ names) := by
  have hother : ∀ child ∈ (children names []).1, child <+: x → META_INF <+: x →
      child = META_INF := fun child hchild hx hm =>
    (mem_children_directories.mp hchild).1.eq_of_common_start isChildDirectory_META_INF hx hm
  simp only [canonicalZipOrder, List.mem_append, List.mem_flatMap, List.mem_filter,
    decide_eq_true_eq]
  constructor
  · rintro ((hx | hx) | ⟨child, ⟨hchild, hne⟩, hx⟩)
    · split at hx
      · next hname =>
        obtain ⟨himp, hpre⟩ := (mem_cons_visit (implied_of_mem hname)).mp hx
        refine ⟨fun h => ?_, himp, fun _ => hname⟩
        rw [h, List.prefix_nil] at hpre
        exact absurd hpre (by decide)
      · simp at hx
    · obtain ⟨hfile, hname⟩ := mem_children_files.mp hx
      refine ⟨hfile.below.2, implied_of_mem hname, fun hm => ?_⟩
      exact absurd hm (hfile.not_below_directory isChildDirectory_META_INF)
    · obtain ⟨himp, hpre⟩ := (mem_cons_visit (implied_of_mem_directories hchild).2).mp hx
      have hlen := (mem_children_directories.mp hchild).1.below.2
      refine ⟨fun h => ?_, himp, fun hm => absurd (hother child hchild hpre hm) hne⟩
      rw [h, List.prefix_nil] at hpre
      simp [hpre] at hlen
  · rintro ⟨hne, himp, hm⟩
    rcases child_of_implied himp (List.nil_prefix) hne with ⟨child, hchild, hx⟩ | hx
    · by_cases heq : child = META_INF
      · have hname := hm (heq ▸ hx)
        rw [if_pos hname]
        exact .inl (.inl ((mem_cons_visit (implied_of_mem hname)).mpr ⟨himp, heq ▸ hx⟩))
      · exact .inr ⟨child, ⟨hchild, heq⟩,
          (mem_cons_visit (implied_of_mem_directories hchild).2).mpr ⟨himp, hx⟩⟩
    · exact .inl (.inr hx)

end RealityCore.Archive
