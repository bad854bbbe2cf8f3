import RealityCore.Archive.Components

/-!
# The canonical order as a canonical form

What the canonical order lists depends on the set of the names alone, and it lists it in one
order. Listing the listing again changes nothing, since it holds its own parent directories.
-/

namespace RealityCore.Archive

open Python (Str)

/-- The canonical order lists, once each, the non-empty names and the directories on the way to
them; without its own entry the metadata directory is left out with everything below it. -/
theorem canonicalZipOrder_lists (names : List Str) :
    (canonicalZipOrder names).Nodup ∧
      ∀ x, x ∈ canonicalZipOrder names ↔
        ((x ∈ names ∧ x ≠ []) ∨
          ∃ name ∈ names, x <+: name ∧ x ≠ name ∧ x.getLast? = some '/') ∧
        (META_INF ∉ names → ¬META_INF <+: x) := by
  refine ⟨nodup_of_pairwise_before (canonicalZipOrder_pairwise names), fun x => ?_⟩
  rw [mem_canonicalZipOrder, ← and_assoc, not_imp_not, Implied]
  refine and_congr_left fun _ => ?_
  by_cases hdir : IsDirectory x
  · rw [if_pos hdir]
    constructor
    · rintro ⟨hne, name, hname, hpre⟩
      by_cases heq : x = name
      · exact .inl ⟨heq ▸ hname, hne⟩
      · exact .inr ⟨name, hname, hpre, heq, hdir⟩
    · rintro (⟨hx, hne⟩ | ⟨name, hname, hpre, -, -⟩)
      · exact ⟨hne, x, hx, List.prefix_rfl⟩
      · exact ⟨IsDirectory.ne_nil hdir, name, hname, hpre⟩
  · rw [if_neg hdir]
    constructor
    · rintro ⟨hne, hx⟩
      exact .inl ⟨hx, hne⟩
    · rintro (⟨hx, hne⟩ | ⟨_, -, -, -, hlast⟩)
      · exact ⟨hne, hx⟩
      · exact absurd hlast hdir

/-- Lists of names with the same members are listed in the same way. -/
theorem canonicalZipOrder_congr {names others : List Str} (h : ∀ x, x ∈ names ↔ x ∈ others) :
    canonicalZipOrder names = canonicalZipOrder others := by
  have hmem : ∀ x, x ∈ canonicalZipOrder names ↔ x ∈ canonicalZipOrder others := by
    intro x
    simp only [mem_canonicalZipOrder, Implied, h]
  have hnames := canonicalZipOrder_pairwise names
  have hothers := canonicalZipOrder_pairwise others
  have hperm := (List.perm_ext_iff_of_nodup (nodup_of_pairwise_before hnames)
    (nodup_of_pairwise_before hothers)).mpr hmem
  exact List.Perm.eq_of_pairwise (fun x y _ _ hxy hyx => absurd hyx (asymm hxy)) hnames hothers
    hperm

/-- The listing holds the directories on the way to its members. -/
theorem closedUnderParents_canonicalZipOrder (names : List Str) :
    ClosedUnderParents (canonicalZipOrder names) := by
  intro name hname place hplace _ hdir
  obtain ⟨-, himplied, hmeta⟩ := mem_canonicalZipOrder.mp hname
  obtain ⟨whole, hwhole, hpre⟩ := himplied.exists_name
  refine mem_canonicalZipOrder.mpr ⟨hdir.ne_nil, ?_, fun hm => hmeta (hm.trans hplace)⟩
  exact implied_of_prefix hdir hwhole (hplace.trans hpre)

/-- Listing a listing again changes nothing. -/
theorem canonicalZipOrder_idempotent (names : List Str) :
    canonicalZipOrder (canonicalZipOrder names) = canonicalZipOrder names := by
  refine ((eq_canonicalZipOrder_iff _).mpr ⟨canonicalZipOrder_pairwise names, ?_⟩).symm
  refine (mem_iff_mem_canonicalZipOrder _).mpr ⟨fun hnil => ?_, ?_⟩
  · exact (mem_canonicalZipOrder.mp hnil).1 rfl
  · exact closedUnderParents_canonicalZipOrder names

/-- The canonical order is a canonical form of the set of the names, and accepted archives with
the same entry names list them in the same order. -/
theorem canonicalZipOrder_canonicalForm :
    (∀ names, canonicalZipOrder (canonicalZipOrder names) = canonicalZipOrder names) ∧
      (∀ names others : List Str, (∀ x, x ∈ names ↔ x ∈ others) →
        canonicalZipOrder names = canonicalZipOrder others) ∧
      ∀ (archive other : ArchivePath) (infos others : List ZipInfo),
        archive.infolist = some infos → other.infolist = some others →
        validateArchive archive = .ok () → validateArchive other = .ok () →
        (∀ x, x ∈ infos.map ZipInfo.filename ↔ x ∈ others.map ZipInfo.filename) →
        infos.map ZipInfo.filename = others.map ZipInfo.filename := by
  refine ⟨canonicalZipOrder_idempotent, fun _ _ => canonicalZipOrder_congr, ?_⟩
  intro archive other infos others hinfos hothers harchive hother hsame
  have hnames := ((validateArchive_eq_ok_iff hinfos).mp harchive).2.1.canonical
  have hotherNames := ((validateArchive_eq_ok_iff hothers).mp hother).2.1.canonical
  rw [hnames, hotherNames]
  exact canonicalZipOrder_congr hsame

/-- Names in another order and twice, and two archives with the same names. -/
theorem canonicalZipOrder_canonicalForm_names :
    canonicalZipOrder ["b".toList, "a/".toList] =
        canonicalZipOrder ["a/".toList, "b".toList, "a/".toList] ∧
      (emptyEntries ["a/".toList]).map ZipInfo.filename =
        [ZipInfo.mk "a/".toList FIXED_TIME 1 (.ok [65])].map ZipInfo.filename := by
  have hnames : NamesPass ["a/".toList] :=
    namesPass_iff.mpr ⟨by decide, by decide, by decide, by decide⟩
  refine ⟨canonicalZipOrder_canonicalForm.2.1 _ _ fun x => by simp [or_comm], ?_⟩
  have hother : validateArchive ⟨"b.jar".toList,
      some [⟨"a/".toList, FIXED_TIME, 1, .ok [65]⟩]⟩ = .ok () := by
    refine (validateArchive_eq_ok_iff rfl).mpr ⟨?_, ?_, ?_, ?_⟩
    · decide
    · exact hnames
    · decide
    · decide
  refine canonicalZipOrder_canonicalForm.2.2 ⟨"a.jar".toList, _⟩ _ _ _ rfl rfl ?_ hother
    fun _ => Iff.rfl
  exact validateArchive_emptyEntries (List.cons_ne_nil _ _) (by decide) hnames _

end RealityCore.Archive
