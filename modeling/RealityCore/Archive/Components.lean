import RealityCore.Archive.ValidateArchive

/-!
# The paths of archive entries

The checks compare the names of entries, and the safety check looks at them without their
trailing slashes. Two names of one path differ in the number of these slashes, and the names
between them are parent directories, so accepted names denote different paths exactly when no
name is another one with a slash behind it.
-/

namespace RealityCore.Archive

open Python (Str)

/-- A name is its text without trailing slashes and these slashes. -/
theorem eq_rdropWhile_append_replicate (name : Str) :
    ∃ n, name = name.rdropWhile (· == '/') ++ List.replicate n '/' := by
  have hslashes : ∀ c ∈ name.rtakeWhile (· == '/'), c = '/' := fun c hc => by
    simpa using List.mem_rtakeWhile_imp hc
  refine ⟨(name.rtakeWhile (· == '/')).length, ?_⟩
  rw [← List.eq_replicate_of_mem hslashes, List.rdropWhile_append_rtakeWhile]

/-- Names denote one path exactly when they are the same without trailing slashes. -/
theorem components_eq_iff {x y : Str} :
    components x = components y ↔ x.rdropWhile (· == '/') = y.rdropWhile (· == '/') := by
  refine ⟨fun h => ?_, fun h => by rw [components, components, h]⟩
  have hjoin := congrArg (List.intercalate ['/']) h
  rwa [components, components, List.intercalate_splitOn, List.intercalate_splitOn] at hjoin

/-- A trailing slash does not change the path. -/
theorem components_append_slash (name : Str) : components (name ++ ['/']) = components name := by
  rw [components_eq_iff, List.rdropWhile_concat_pos _ _ _ rfl]

/-- Names that pass hold their parent directories. -/
theorem NamesPass.parent {names : List Str} (h : NamesPass names) {name place : Str}
    (hname : name ∈ names) (hplace : place <+: name) (hdir : IsDirectory place) :
    place ∈ names := by
  have hclosed := ((mem_iff_mem_canonicalZipOrder names).mp
    ((eq_canonicalZipOrder_iff names).mp h.canonical).2).2
  by_cases heq : place = name
  · exact heq ▸ hname
  · exact hclosed name hname place hplace heq hdir

/-- Of two names of one path, the shorter one with a slash behind it is a name too. -/
theorem NamesPass.slash_mem {names : List Str} (h : NamesPass names) {stem : Str} {m n : ℕ}
    (hlong : stem ++ List.replicate n '/' ∈ names) (hlt : m < n) :
    stem ++ List.replicate m '/' ++ ['/'] ∈ names := by
  refine h.parent hlong ⟨List.replicate (n - (m + 1)) '/', ?_⟩ (by simp [IsDirectory])
  rw [List.append_assoc stem, ← List.replicate_succ', List.append_assoc,
    List.replicate_append_replicate, Nat.add_sub_cancel' hlt]

/-- Names that pass denote different paths exactly when no name is another with a slash behind
it. -/
theorem components_nodup_iff {names : List Str} (h : NamesPass names) :
    (names.map components).Nodup ↔ ∀ name ∈ names, name ++ ['/'] ∉ names := by
  constructor
  · intro hnodup name hname hslash
    have heq := List.inj_on_of_nodup_map hnodup hslash hname (components_append_slash name)
    simp at heq
  · intro hslash
    have hnames : names.Nodup :=
      nodup_of_pairwise_before ((eq_canonicalZipOrder_iff names).mp h.canonical).1
    refine hnames.map_on fun x hx y hy hxy => ?_
    obtain ⟨m, hm⟩ := eq_rdropWhile_append_replicate x
    obtain ⟨n, hn⟩ := eq_rdropWhile_append_replicate y
    rw [← components_eq_iff.mp hxy] at hn
    rcases lt_trichotomy m n with hlt | rfl | hlt
    · refine absurd (h.slash_mem (hn ▸ hy) hlt) ?_
      rw [← hm]
      exact hslash x hx
    · rw [hm, hn]
    · refine absurd (h.slash_mem (hm ▸ hx) hlt) ?_
      rw [← hn]
      exact hslash y hy

/-- The checks of names, with the parent directories of a name among its beginnings. -/
theorem namesPass_iff {names : List Str} :
    NamesPass names ↔ names.Pairwise Before ∧ [] ∉ names ∧
      (∀ name ∈ names, ∀ place ∈ name.inits, IsDirectory place → place ∈ names) ∧
      ∀ name ∈ names, isUnsafeName name = false := by
  constructor
  · intro h
    obtain ⟨hsorted, hmem⟩ := (eq_canonicalZipOrder_iff names).mp h.canonical
    refine ⟨hsorted, ((mem_iff_mem_canonicalZipOrder names).mp hmem).1, ?_, h.safe⟩
    exact fun name hname place hplace hdir => h.parent hname ((List.mem_inits _ _).mp hplace) hdir
  · rintro ⟨hsorted, hnil, hclosed, hsafe⟩
    have hmem := (mem_iff_mem_canonicalZipOrder names).mpr ⟨hnil, fun name hname place hplace _ =>
      hclosed name hname place ((List.mem_inits _ _).mpr hplace)⟩
    refine ⟨(eq_canonicalZipOrder_iff names).mpr ⟨hsorted, hmem⟩, ?_, hsafe⟩
    rw [List.dedup_eq_self.mpr (nodup_of_pairwise_before hsorted)]

/-- A directory and a file below it have different paths. -/
theorem components_nodup_iff_directory :
    (["a/".toList, "a/b".toList].map components).Nodup ∧
      ∀ name ∈ ["a/".toList, "a/b".toList], name ++ ['/'] ∉ ["a/".toList, "a/b".toList] := by
  have hnames : NamesPass ["a/".toList, "a/b".toList] :=
    namesPass_iff.mpr ⟨by decide, by decide, by decide, by decide⟩
  have hslash : ∀ name ∈ ["a/".toList, "a/b".toList],
      name ++ ['/'] ∉ ["a/".toList, "a/b".toList] := by decide
  exact ⟨(components_nodup_iff hnames).mpr hslash, hslash⟩

/-- A file and a directory of one name pass and are accepted as the entries of an archive, although
they have one path. -/
theorem fileAndDirectory_accepted :
    NamesPass ["a".toList, "a/".toList] ∧
      validateArchive ⟨"core.jar".toList, some (emptyEntries ["a".toList, "a/".toList])⟩ = .ok () ∧
      ¬(["a".toList, "a/".toList].map components).Nodup := by
  have hnames : NamesPass ["a".toList, "a/".toList] :=
    namesPass_iff.mpr ⟨by decide, by decide, by decide, by decide⟩
  refine ⟨hnames, ?_, by decide⟩
  exact validateArchive_emptyEntries (List.cons_ne_nil _ _) (by decide) hnames _

end RealityCore.Archive
