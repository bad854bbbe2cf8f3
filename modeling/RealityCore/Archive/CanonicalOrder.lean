import Mathlib.Data.List.Perm.Subperm
import RealityCore.Archive.CanonicalListing

/-!
# Exact acceptance of archive order

The canonical listing is sorted by `Before`: below one directory the child entries are
compared, and a child stands for everything below it. Two lists sorted by a strict order and
with the same members are equal, so a list of names is accepted exactly when it is sorted,
closed under parent directories and without the empty name.
-/

namespace RealityCore.Archive

open Python (Str)

/-- A name whose first component below a place is the given child entry. -/
def StartsAt (place entry x : Str) : Prop :=
  ∃ rest, x = place ++ rest ∧ (entries rest).head? = some entry

/-- Names below one place are ordered by their child entries. -/
theorem before_of_startsAt {place a b x y : Str} (h : IsPlace place) (hx : StartsAt place a x)
    (hy : StartsAt place b y) (hab : SiblingBefore (entries place) a b) : Before x y := by
  obtain ⟨xs, rfl, ha⟩ := hx
  obtain ⟨ys, rfl, hb⟩ := hy
  exact before_of_siblings h ha hb hab

/-- A child directory is the child entry of everything from it on. -/
theorem IsChildDirectory.startsAt {place child : Str} (h : IsChildDirectory place child) :
    ∃ entry, child = place ++ entry ∧ IsDirectory entry ∧
      ∀ x, child <+: x → StartsAt place entry x := by
  obtain ⟨head, hhead, rfl⟩ := h
  refine ⟨head ++ ['/'], rfl, by simp [IsDirectory], ?_⟩
  rintro x ⟨tail, rfl⟩
  exact ⟨head ++ '/' :: tail, by simp, by simp [entries_directory hhead]⟩

/-- A child file is its own child entry, of the rank of files. -/
theorem IsChildFile.startsAt {place x : Str} (h : IsChildFile place x) :
    ∃ entry, x = place ++ entry ∧ StartsAt place entry x ∧ ∀ above, kindRank above entry = 1 := by
  obtain ⟨rest, hrest, hsep, rfl⟩ := h
  refine ⟨rest, rfl, ⟨rest, rfl, by simp [entries_file hrest hsep]⟩, fun above => ?_⟩
  have hdir : ¬IsDirectory rest := fun hlast => hsep (List.mem_of_getLast? hlast)
  have hmeta : rest ≠ META_INF := fun heq => hsep (heq ▸ by decide)
  simp [kindRank, hdir, hmeta]

/-- A shared beginning does not matter for the string order. -/
theorem lt_of_append_lt {place a b : Str} (h : place ++ a < place ++ b) : a < b := by
  rcases lt_trichotomy a b with hab | rfl | hba
  · exact hab
  · exact absurd h (lt_irrefl _)
  · exact absurd h (List.append_left_lt hba).asymm

/-- A directory leads its visit. -/
theorem cons_visit_pairwise {names : List Str} {directory : Str} (h : IsDirectory directory)
    (hvisit : (visit names directory).Pairwise Before) :
    (directory :: visit names directory).Pairwise Before := by
  refine List.pairwise_cons.mpr ⟨fun x hx => ?_, hvisit⟩
  obtain ⟨-, ⟨rest, rfl⟩, hne⟩ := mem_visit.mp hx
  exact before_below (.inr h) (by simpa using hne)

/-- Child directories of one rank are listed in order, each with its visit. -/
theorem blocks_pairwise {names : List Str} {place : Str} (h : IsPlace place) {l : List Str}
    (hl : l.Sublist (children names place).1) (rank : ℕ)
    (hrank : ∀ entry, place ++ entry ∈ l → kindRank (entries place) entry = rank)
    (hvisit : ∀ child ∈ l, (visit names child).Pairwise Before) :
    (l.flatMap fun child => child :: visit names child).Pairwise Before := by
  have hdir : ∀ child ∈ l, child ∈ (children names place).1 := fun child hc => hl.subset hc
  refine List.pairwise_flatMap.mpr ⟨fun child hc => ?_, ?_⟩
  · exact cons_visit_pairwise (implied_of_mem_directories (hdir child hc)).1 (hvisit child hc)
  · have hlt : l.Pairwise (· < ·) := (children_pairwise_lt names place).1.sublist hl
    refine hlt.imp_of_mem fun {c d} hc hd hcd x hx y hy => ?_
    have hxc := (mem_cons_visit (implied_of_mem_directories (hdir c hc)).2).mp hx
    have hyd := (mem_cons_visit (implied_of_mem_directories (hdir d hd)).2).mp hy
    obtain ⟨a, rfl, -, ha⟩ := (mem_children_directories.mp (hdir c hc)).1.startsAt
    obtain ⟨b, rfl, -, hb⟩ := (mem_children_directories.mp (hdir d hd)).1.startsAt
    refine before_of_startsAt h (ha x hxc.2) (hb y hyd.2) (.inr ⟨?_, lt_of_append_lt hcd⟩)
    rw [hrank a hc, hrank b hd]

/-- Child files are listed in order. -/
theorem files_pairwise (names : List Str) {place : Str} (h : IsPlace place) :
    (children names place).2.Pairwise Before := by
  refine (children_pairwise_lt names place).2.imp_of_mem fun {x y} hx hy hxy => ?_
  obtain ⟨a, rfl, ha, hra⟩ := (mem_children_files.mp hx).1.startsAt
  obtain ⟨b, rfl, hb, hrb⟩ := (mem_children_files.mp hy).1.startsAt
  exact before_of_startsAt h ha hb (.inr ⟨by rw [hra, hrb], lt_of_append_lt hxy⟩)

/-- A visit lists its entries in order: directories with their contents, then files. -/
theorem visit_pairwise (names : List Str) (directory : Str) (h : IsDirectory directory) :
    (visit names directory).Pairwise Before := by
  induction directory using visit.induct names with
  | case1 directory ih =>
    have hroot : entries directory ≠ [] := by
      rw [Ne, entries_eq_nil_iff]
      exact h.ne_nil
    have hrank : ∀ entry, IsDirectory entry → kindRank (entries directory) entry = 0 :=
      fun entry hentry => by simp [kindRank, hroot, hentry]
    rw [visit_eq, List.pairwise_append]
    refine ⟨blocks_pairwise (.inr h) (List.Sublist.refl _) 0 (fun entry hentry => ?_)
      fun child hc => ?_,
      files_pairwise names (.inr h), fun x hx y hy => ?_⟩
    · obtain ⟨a, heq, ha, -⟩ := (mem_children_directories.mp hentry).1.startsAt
      rw [List.append_cancel_left heq]
      exact hrank a ha
    · exact ih child hc (implied_of_mem_directories hc).1
    · obtain ⟨child, hc, hx⟩ := List.mem_flatMap.mp hx
      have hxc := (mem_cons_visit (implied_of_mem_directories hc).2).mp hx
      obtain ⟨a, -, hdir, ha⟩ := (mem_children_directories.mp hc).1.startsAt
      obtain ⟨b, -, hb, hrb⟩ := (mem_children_files.mp hy).1.startsAt
      refine before_of_startsAt (.inr h) (ha x hxc.2) hb (.inl ?_)
      rw [hrank a hdir, hrb]
      exact Nat.one_pos

/-- At the root the metadata directory leads, then come the files and the other directories. -/
theorem canonicalZipOrder_pairwise (names : List Str) :
    (canonicalZipOrder names).Pairwise Before := by
  have hroot : IsPlace [] := .inl rfl
  have hleading : ∀ x ∈ (if META_INF ∈ names then META_INF :: visit names META_INF else []),
      StartsAt [] META_INF x := by
    intro x hx
    split at hx
    · next hname =>
      obtain ⟨entry, heq, -, hstarts⟩ := isChildDirectory_META_INF.startsAt
      have hbelow := ((mem_cons_visit (implied_of_mem hname)).mp hx).2
      exact (show entry = META_INF from heq.symm) ▸ hstarts x hbelow
    · simp at hx
  have hfiles : ∀ x ∈ (children names []).2, ∃ entry, StartsAt [] entry x ∧
      kindRank [] entry = 1 := by
    intro x hx
    obtain ⟨entry, -, hstarts, hrank⟩ := (mem_children_files.mp hx).1.startsAt
    exact ⟨entry, hstarts, hrank []⟩
  have hrank : ∀ entry ∈ (children names []).1.filter (· ≠ META_INF), kindRank [] entry = 2 := by
    intro entry hentry
    obtain ⟨hmem, hne⟩ := List.mem_filter.mp hentry
    have hne : entry ≠ META_INF := of_decide_eq_true hne
    simp [kindRank, hne, (implied_of_mem_directories hmem).1]
  have hothers : ∀ x ∈ ((children names []).1.filter (· ≠ META_INF)).flatMap
      (fun child => child :: visit names child), ∃ entry, StartsAt [] entry x ∧
      kindRank [] entry = 2 := by
    intro x hx
    obtain ⟨child, hc, hx⟩ := List.mem_flatMap.mp hx
    have hmem := (List.mem_filter.mp hc).1
    have hxc := (mem_cons_visit (implied_of_mem_directories hmem).2).mp hx
    obtain ⟨entry, rfl, -, hstarts⟩ := (mem_children_directories.mp hmem).1.startsAt
    exact ⟨child, hstarts x hxc.2, hrank child hc⟩
  have hmeta : kindRank [] META_INF = 0 := by simp [kindRank]
  simp only [canonicalZipOrder, List.pairwise_append, List.mem_append]
  refine ⟨⟨?_, files_pairwise names hroot, fun x hx y hy => ?_⟩,
    blocks_pairwise hroot List.filter_sublist 2 hrank fun child hc => ?_, fun x hx y hy => ?_⟩
  · split
    · exact cons_visit_pairwise isChildDirectory_META_INF.isDirectory
        (visit_pairwise names META_INF isChildDirectory_META_INF.isDirectory)
    · exact List.Pairwise.nil
  · obtain ⟨b, hb, hrb⟩ := hfiles y hy
    exact before_of_startsAt hroot (hleading x hx) hb (.inl (by rw [entries, hmeta, hrb]; omega))
  · exact visit_pairwise names child (implied_of_mem_directories (List.mem_filter.mp hc).1).1
  · obtain ⟨b, hb, hrb⟩ := hothers y hy
    rcases hx with hx | hx
    · exact before_of_startsAt hroot (hleading x hx) hb (.inl (by rw [entries, hmeta, hrb]; omega))
    · obtain ⟨a, ha, hra⟩ := hfiles x hx
      exact before_of_startsAt hroot ha hb (.inl (by rw [entries, hra, hrb]; omega))

/-- A strictly sorted list has no duplicates. -/
theorem nodup_of_pairwise_before {names : List Str} (h : names.Pairwise Before) :
    names.Nodup := by
  refine h.imp fun {x y} hxy heq => ?_
  subst heq
  exact irrefl x hxy

/-- Names are canonical exactly when they are the members of their listing, in order. -/
theorem eq_canonicalZipOrder_iff (names : List Str) :
    names = canonicalZipOrder names ↔
      names.Pairwise Before ∧ ∀ x, x ∈ names ↔ x ∈ canonicalZipOrder names := by
  constructor
  · intro h
    have hsorted := canonicalZipOrder_pairwise names
    rw [← h] at hsorted
    exact ⟨hsorted, fun x => by rw [← h]⟩
  · rintro ⟨hsorted, hmem⟩
    have hlisting := canonicalZipOrder_pairwise names
    have hperm : names.Perm (canonicalZipOrder names) :=
      (List.perm_ext_iff_of_nodup (nodup_of_pairwise_before hsorted)
        (nodup_of_pairwise_before hlisting)).mpr hmem
    exact List.Perm.eq_of_pairwise (fun x y _ _ hxy hyx => absurd hyx (asymm hxy)) hsorted
      hlisting hperm

/-- Every directory on the way to a name is a name itself. -/
def ClosedUnderParents (names : List Str) : Prop :=
  ∀ name ∈ names, ∀ place, place <+: name → place ≠ name → IsDirectory place → place ∈ names

/-- The members of the listing are the names exactly when no parent directory is missing. -/
theorem mem_iff_mem_canonicalZipOrder (names : List Str) :
    (∀ x, x ∈ names ↔ x ∈ canonicalZipOrder names) ↔ [] ∉ names ∧ ClosedUnderParents names := by
  simp only [mem_canonicalZipOrder]
  constructor
  · intro h
    refine ⟨fun hnil => ((h []).mp hnil).1 rfl, fun name hname place hpre _ hdir => ?_⟩
    refine (h place).mpr ⟨hdir.ne_nil, ?_, fun hm => ((h name).mp hname).2.2 (hm.trans hpre)⟩
    exact implied_of_prefix hdir hname hpre
  · rintro ⟨hnil, hclosed⟩ x
    have hplace : ∀ {place name}, place <+: name → name ∈ names → IsDirectory place →
        place ∈ names := by
      intro place name hpre hname hdir
      by_cases heq : place = name
      · exact heq ▸ hname
      · exact hclosed name hname place hpre heq hdir
    constructor
    · intro hx
      refine ⟨fun heq => hnil (heq ▸ hx), implied_of_mem hx, fun hm => ?_⟩
      exact hplace hm hx isChildDirectory_META_INF.isDirectory
    · rintro ⟨-, himp, -⟩
      rw [Implied] at himp
      split at himp
      · next hdir =>
        obtain ⟨name, hname, hpre⟩ := himp
        exact hplace hpre hname hdir
      · exact himp

/-- The archive order is accepted exactly for names without duplicates and empty names that
hold their parent directories and are listed in the total order `Before`. -/
theorem canonicalZipOrder_accepts_iff :
    IsStrictTotalOrder Str Before ∧
      ∀ names : List Str, names = canonicalZipOrder names ↔
        names.Nodup ∧ [] ∉ names ∧ ClosedUnderParents names ∧ names.Pairwise Before := by
  refine ⟨inferInstance, fun names => ?_⟩
  rw [eq_canonicalZipOrder_iff, mem_iff_mem_canonicalZipOrder]
  constructor
  · rintro ⟨hsorted, hnil, hclosed⟩
    exact ⟨nodup_of_pairwise_before hsorted, hnil, hclosed, hsorted⟩
  · rintro ⟨-, hnil, hclosed, hsorted⟩
    exact ⟨hsorted, hnil, hclosed⟩

end RealityCore.Archive
