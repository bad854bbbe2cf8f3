import RealityCore.Workflow.Columns

/-!
# Where key lines stand

The parser asks of most lines only that they are deeper than another one. The nesting follows the
columns exactly when each key line that is not a list item opens the value of the line above it or
continues the map of the nearest earlier line that is not to the right of it.
-/

namespace RealityCore.Workflow

open Python (Str)

/-- The nearest of the earlier lines, which come in reverse order, that is not right of a column
stands in it. -/
def StandsAt (column : ℕ) (before : List Line) : Prop :=
  ∃ line ∈ before.find? (·.column ≤ column), line.column = column

/-- The line directly above has no value and stands further to the left. -/
def Opens (before : List Line) (line : Line) : Prop :=
  ∃ last ∈ before.head?, last.bare = true ∧ last.column < line.column

/-- The line directly above is a list item without a value, and the line stands in its column. -/
def UnderDash (before : List Line) (line : Line) : Prop :=
  ∃ last ∈ before.head?, last.isItem = true ∧ last.bare = true ∧ last.column = line.column

/-- A line that is not a list item stands first, below a key without a value, or in the column of
the nearest earlier line that is not right of it. -/
def Fits (before : List Line) (line : Line) : Prop :=
  before = [] ∨ Opens before line ∨ (StandsAt line.column before ∧ ¬UnderDash before line)

/-- Every line that is not a list item fits the lines before it. -/
def Placed (before : List Line) : List Line → Prop
  | [] => True
  | line :: rest => (line.isItem = false → Fits before line) ∧ Placed (line :: before) rest

/-- Lines are placed one stretch after the other. -/
theorem placed_append {before front back : List Line} :
    Placed before (front ++ back) ↔
      Placed before front ∧ Placed (front.reverse ++ before) back := by
  induction front generalizing before with
  | nil => simp [Placed]
  | cons line front ih =>
    rw [List.cons_append, Placed, Placed, ih, List.reverse_cons, List.append_assoc, and_assoc]
    rfl

/-- The nearest line is looked for in the later lines first. -/
theorem standsAt_append {column : ℕ} {near far : List Line} :
    StandsAt column (near ++ far) ↔
      StandsAt column near ∨ (∀ line ∈ near, column < line.column) ∧ StandsAt column far := by
  rw [StandsAt, List.find?_append]
  cases hfind : near.find? (·.column ≤ column) with
  | none =>
    have hright : ∀ line ∈ near, column < line.column := by
      simpa [List.find?_eq_none] using hfind
    simp only [StandsAt, hfind, Option.none_or]
    exact ⟨fun h => .inr ⟨hright, h⟩, fun h => h.elim (fun h => by simp at h) And.right⟩
  | some line =>
    have hmem := List.mem_of_find?_eq_some hfind
    have hleft : line.column ≤ column := by simpa using List.find?_some hfind
    simp only [StandsAt, hfind, Option.some_or]
    refine ⟨.inl, fun h => h.elim id fun h => ?_⟩
    exact absurd hleft (not_le.mpr (h.1 line hmem))

/-- A line that is not right of a column is the nearest one. -/
theorem StandsAt.column_eq {column : ℕ} {line : Line} {before : List Line}
    (h : StandsAt column (line :: before)) (hle : line.column ≤ column) : line.column = column := by
  obtain ⟨other, hother, heq⟩ := h
  rw [List.find?_cons_of_pos (by simpa using hle)] at hother
  exact Option.some.inj hother ▸ heq

/-- Behind lines further to the right the nearest line is still the one before them. -/
theorem standsAt_of_right {line : Line} {below before : List Line}
    (h : ∀ inner ∈ below, line.column < inner.column) :
    StandsAt line.column (below.reverse ++ line :: before) := by
  refine standsAt_append.mpr (.inr ⟨fun inner hinner => h inner (List.mem_reverse.mp hinner), ?_⟩)
  exact ⟨line, by simp, rfl⟩

/-! ## What a stretch leaves open -/

/-- After the lines, a following line neither opens a value nor continues one of their maps. -/
def Ended (lines : List Line) (next : Line) : Prop :=
  ¬StandsAt next.column lines.reverse ∧ ¬Opens lines.reverse next

/-- The end of a stretch closes what is not left of it. -/
theorem Ended.append {front back : List Line} {next : Line} (h : Ended back next) (hne : back ≠ [])
    (hcolumn : ∀ line ∈ front, ∃ last ∈ back, last.column ≤ line.column) :
    Ended (front ++ back) next := by
  rw [Ended, List.reverse_append]
  constructor
  · rw [standsAt_append]
    rintro (hstands | ⟨hright, line, hline, heq⟩)
    · exact h.1 hstands
    · have hfront := List.mem_reverse.mp (List.mem_of_find?_eq_some hline)
      obtain ⟨last, hlast, hle⟩ := hcolumn line hfront
      have := hright last (List.mem_reverse.mpr hlast)
      omega
  · rw [Opens, List.head?_append_of_ne_nil _ (List.reverse_ne_nil_iff.mpr hne)]
    exact h.2

/-- A key line is closed by the end of its value, or else by its own value. -/
theorem Ended.cons {line next : Line} {below : List Line} (h : Ended below next)
    (hcolumn : line.column ≠ next.column)
    (hbare : below = [] → line.bare = true → next.column ≤ line.column) :
    Ended (line :: below) next := by
  rw [Ended, List.reverse_cons]
  constructor
  · rw [standsAt_append]
    rintro (hstands | ⟨-, other, hother, heq⟩)
    · exact h.1 hstands
    · obtain rfl : other = line := by
        simpa using List.mem_of_find?_eq_some hother
      exact hcolumn heq
  · rintro ⟨last, hlast, hopen, hlt⟩
    by_cases hnil : below = []
    · subst hnil
      obtain rfl : line = last := by simpa using hlast
      exact absurd (hbare rfl hopen) (not_le.mpr hlt)
    · rw [List.head?_append_of_ne_nil _ (List.reverse_ne_nil_iff.mpr hnil)] at hlast
      exact h.2 ⟨last, hlast, hopen, hlt⟩

/-- Nothing is open before the first line. -/
theorem Ended.nil (next : Line) : Ended [] next := ⟨by simp [StandsAt], by simp [Opens]⟩

end RealityCore.Workflow
