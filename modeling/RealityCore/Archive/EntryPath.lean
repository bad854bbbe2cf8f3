import RealityCore.Library.Hierarchy
import RealityCore.Library.PythonText

/-!
# Archive entry names as paths

An entry name is cut after every `/`, so a directory entry keeps its separator and a file
entry has none. `Before` is the reviewed order of a canonical archive: a directory precedes
what is below it, and the children of one directory are ordered by kind and then by name.
-/

namespace RealityCore.Archive

open Python (Str)

/-- The components of an entry name, each with the `/` that ends it. -/
def entries : Str → List Str
  | [] => []
  | c :: rest =>
    if c = '/' then ['/'] :: entries rest
    else match entries rest with
      | [] => [[c]]
      | entry :: below => (c :: entry) :: below

/-- Directory names end in `/`. -/
def IsDirectory (name : Str) : Prop := name.getLast? = some '/'

instance (name : Str) : Decidable (IsDirectory name) := inferInstanceAs (Decidable (_ = _))

/-- Directory names are not empty. -/
theorem IsDirectory.ne_nil {name : Str} (h : IsDirectory name) : name ≠ [] := by
  rintro rfl
  simp [IsDirectory] at h

/-- The root and the directories are the places entries can be below. -/
def IsPlace (name : Str) : Prop := name = [] ∨ IsDirectory name

/-- The metadata directory that leads a Java archive. -/
def META_INF : Str := "META-INF/".toList

/-- The kind of an entry below a directory: the metadata directory leads at the root, where
files come before directories; elsewhere directories come before files. -/
def kindRank (above : List Str) (entry : Str) : ℕ :=
  if above = [] then
    if entry = META_INF then 0 else if IsDirectory entry then 2 else 1
  else if IsDirectory entry then 0 else 1

/-- Entries of one directory are ordered by kind, and by code points within a kind. -/
def SiblingBefore (above : List Str) (a b : Str) : Prop :=
  kindRank above a < kindRank above b ∨ (kindRank above a = kindRank above b ∧ a < b)

instance (above : List Str) : DecidableRel (SiblingBefore above) :=
  fun _ _ => inferInstanceAs (Decidable (_ ∨ _))

instance (above : List Str) : IsStrictTotalOrder Str (SiblingBefore above) where
  irrefl a h := by simp [SiblingBefore] at h
  trans a b c hab hbc := by
    rcases hab with hab | ⟨hab, ha⟩
    · rcases hbc with hbc | ⟨hbc, -⟩
      · exact .inl (hab.trans hbc)
      · exact .inl (hbc ▸ hab)
    · rcases hbc with hbc | ⟨hbc, hb⟩
      · exact .inl (hab ▸ hbc)
      · exact .inr ⟨hab.trans hbc, ha.trans hb⟩
  trichotomous a b hab hba := by
    simp only [SiblingBefore, not_or, not_and, not_lt] at hab hba
    have hrank : kindRank above a = kindRank above b := le_antisymm hba.1 hab.1
    exact le_antisymm (hba.2 hrank.symm) (hab.2 hrank)

/-- The order of a canonical archive. -/
def Before (x y : Str) : Prop := Hierarchy.Precedes SiblingBefore [] (entries x) (entries y)

instance : DecidableRel Before := fun _ _ =>
  inferInstanceAs (Decidable (Hierarchy.Precedes _ _ _ _))

/-- Only the empty name has no components. -/
theorem entries_eq_nil_iff {name : Str} : entries name = [] ↔ name = [] := by
  cases name with
  | nil => simp [entries]
  | cons c rest =>
    rw [entries]
    split
    · simp
    · split <;> simp

/-- The components spell the name. -/
theorem flatten_entries (name : Str) : (entries name).flatten = name := by
  induction name with
  | nil => rfl
  | cons c rest ih =>
    rw [entries]
    split
    · simp_all
    · split
      · next h => simp [entries_eq_nil_iff.mp h]
      · next h => simpa [h] using ih

/-- A name is determined by its components. -/
theorem entries_injective : Function.Injective entries := by
  intro x y h
  rw [← flatten_entries x, h, flatten_entries]

/-- A file has one component. -/
theorem entries_file {name : Str} (hne : name ≠ []) (h : '/' ∉ name) : entries name = [name] := by
  induction name with
  | nil => exact absurd rfl hne
  | cons c rest ih =>
    have hc : c ≠ '/' := fun heq => h (heq ▸ List.mem_cons_self)
    rw [entries, if_neg hc]
    cases rest with
    | nil => rfl
    | cons d rest => rw [ih (by simp) fun hd => h (List.mem_cons_of_mem c hd)]

/-- The first separator ends the first component. -/
theorem entries_directory {head : Str} (h : '/' ∉ head) (rest : Str) :
    entries (head ++ '/' :: rest) = (head ++ ['/']) :: entries rest := by
  induction head with
  | nil => simp [entries]
  | cons c head ih =>
    have hc : c ≠ '/' := fun heq => h (heq ▸ List.mem_cons_self)
    rw [List.cons_append, entries, if_neg hc, ih fun hd => h (List.mem_cons_of_mem c hd)]
    rfl

/-- A directory cuts a name between components. -/
theorem entries_append {place : Str} (h : IsPlace place) (rest : Str) :
    entries (place ++ rest) = entries place ++ entries rest := by
  induction place with
  | nil => rfl
  | cons c place ih =>
    have hlast : (c :: place).getLast? = some '/' := h.resolve_left (List.cons_ne_nil _ _)
    by_cases hp : place = []
    · subst hp
      have hc : c = '/' := by simpa using hlast
      simp [entries, hc]
    · have hplace : IsPlace place := by
        refine .inr ?_
        rwa [IsDirectory, ← List.getLast?_cons_of_ne_nil hp]
      obtain ⟨entry, below, hentries⟩ :=
        List.exists_cons_of_ne_nil (mt entries_eq_nil_iff.mp hp)
      have := ih hplace
      simp only [List.cons_append, entries, this, hentries]
      split <;> rfl

instance before_isStrictTotalOrder : IsStrictTotalOrder Str Before where
  irrefl x := Hierarchy.precedes_irrefl [] (entries x)
  trans x y z := Hierarchy.precedes_trans [] (entries x) (entries y) (entries z)
  trichotomous x y hxy hyx :=
    entries_injective (Hierarchy.precedes_trichotomous [] (entries x) (entries y) hxy hyx)

/-- A directory precedes everything below it. -/
theorem before_below {place rest : Str} (h : IsPlace place) (hrest : rest ≠ []) :
    Before place (place ++ rest) := by
  rw [Before, entries_append h]
  exact Hierarchy.precedes_below [] _ _ (mt entries_eq_nil_iff.mp hrest)

/-- Below a shared directory the next components decide. -/
theorem before_of_siblings {place x y a b : Str} (h : IsPlace place)
    (ha : (entries x).head? = some a) (hb : (entries y).head? = some b)
    (hab : SiblingBefore (entries place) a b) : Before (place ++ x) (place ++ y) := by
  obtain ⟨xs, hx⟩ := List.head?_eq_some_iff.mp ha
  obtain ⟨ys, hy⟩ := List.head?_eq_some_iff.mp hb
  have hne : a ≠ b := fun heq => irrefl (r := SiblingBefore (entries place)) a (heq ▸ hab)
  rw [Before, entries_append h, entries_append h, Hierarchy.precedes_append, hx, hy,
    Hierarchy.precedes_cons_of_ne hne]
  simpa using hab

end RealityCore.Archive
