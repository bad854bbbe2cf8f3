import RealityCore.Workflow.GrammarComplete

/-!
# Key lines and lines of block scalars

Which lines of a workflow hold a key can be told from the lines alone: a line is inside a block
scalar while it is deeper than the last key line whose value is a block indicator.
-/

namespace RealityCore.Workflow

open Python (Str Dict isLineBreak)

/-- The content without a leading `- `. -/
def Line.keyText (line : Line) : Str := if line.isItem then line.content.drop 2 else line.content

/-- The value of the line is a block indicator. -/
def Line.opensText (line : Line) : Bool :=
  match splitMapping line.keyText with
  | .ok (_, raw) => blockIndicators.contains raw
  | .error _ => false

/-- The lines, each with the mark of those inside a block scalar. The first argument is the
indentation of the key line whose block scalar is open. -/
def marked (opened : Option ℕ) : List Line → List (Bool × Line)
  | [] => []
  | line :: rest =>
    if opened.any (· < line.indent) then (true, line) :: marked opened rest
    else (false, line) :: marked (if line.opensText then some line.indent else none) rest

/-- What the lines after a key line with a value are marked with. -/
def openedBy (raw : Str) (indent : ℕ) : Option ℕ :=
  if raw ∈ blockIndicators then some indent else none

/-- A list item shows its key behind the dash. -/
theorem Line.keyText_of_isItem {line : Line} (h : line.isItem = true) :
    line.keyText = line.content.drop 2 := if_pos h

/-- Any other key line starts with its key. -/
theorem Line.keyText_of_not_isItem {line : Line} (h : line.isItem = false) :
    line.keyText = line.content := if_neg (by simp [h])

/-- A list item is a dash, a space and its key line. -/
theorem Line.content_of_isItem {line : Line} (h : line.isItem = true) :
    line.content = '-' :: ' ' :: line.keyText := by
  obtain ⟨tail, htail⟩ := List.isPrefixOf_iff_prefix.mp h
  rw [Line.keyText_of_isItem h, ← htail]
  rfl

/-- The characters behind the dash stand in the line. -/
theorem Line.mem_content_of_mem_keyText {line : Line} {c : Char} (h : c ∈ line.keyText) :
    c ∈ line.content := by
  rw [Line.keyText] at h
  split at h
  · exact List.mem_of_mem_drop h
  · exact h

/-- A line of an accepted text: its content is not empty and holds no line break. -/
def Line.Plain (line : Line) : Prop :=
  line.content ≠ [] ∧ ∀ c ∈ line.content, isLineBreak c = false

/-- The text behind a key holds no line break. -/
theorem Line.Plain.newline_notMem {line : Line} (h : line.Plain) {key raw : Str}
    (hsplit : splitMapping line.keyText = .ok (key, raw)) : '\n' ∉ raw := by
  intro hraw
  have hcontent : '\n' ∈ line.content := by
    apply Line.mem_content_of_mem_keyText
    obtain ⟨tail, htext, -, rfl⟩ := splitMapping_eq_ok_iff.mp hsplit
    rw [htext]
    exact List.mem_append_right _ (List.mem_cons_of_mem _ ((dropSpace_suffix tail).mem hraw))
  exact absurd (h.2 _ hcontent) (by decide)

/-- The lines of an accepted text are plain. -/
theorem Parser.Reads.plain {p : Parser} {text : Str} (h : p.Reads text) :
    ∀ line ∈ p.lines, line.Plain := fun line hline =>
  ⟨(h.readable line hline).nonempty, h.unbroken line hline⟩

/-- The lines of an accepted text have no list item without a content. -/
theorem Parser.Reads.noEmptyItem {p : Parser} {text : Str} (h : p.Reads text) :
    NoEmptyItem p.lines := by
  intro line hline hcontent
  have htrimmed := (h.readable line hline).trimmed
  rw [hcontent] at htrimmed
  exact absurd htrimmed (by decide)

/-- Marking keeps the lines. -/
theorem map_snd_marked (opened : Option ℕ) (lines : List Line) :
    (marked opened lines).map Prod.snd = lines := by
  induction lines generalizing opened with
  | nil => rfl
  | cons line lines ih =>
    rw [marked]
    split
    · rw [List.map_cons, ih]
    · rw [List.map_cons, ih]

/-- A line that is not deeper ends the block scalar. -/
theorem marked_shallow {indent : ℕ} {lines : List Line} (h : Shallow indent lines) :
    marked (some indent) lines = marked none lines := by
  cases lines with
  | nil => rfl
  | cons line lines =>
    have hstop : ¬indent < line.indent := not_lt.mpr (h line rfl)
    simp [marked, hstop]

/-- Deeper lines belong to the block scalar. -/
theorem marked_deeper {indent : ℕ} {body following : List Line}
    (h : ∀ line ∈ body, indent < line.indent) :
    marked (some indent) (body ++ following) =
      body.map (true, ·) ++ marked (some indent) following := by
  induction body with
  | nil => rfl
  | cons line body ih =>
    obtain ⟨hline, hbody⟩ := List.forall_mem_cons.mp h
    rw [List.cons_append, marked, if_pos (by simpa using hline), ih hbody]
    rfl

/-- Outside of block scalars a key line decides about the lines after it. -/
theorem marked_key {line : Line} {key raw : Str}
    (h : splitMapping line.keyText = .ok (key, raw)) (rest : List Line) :
    marked none (line :: rest) = (false, line) :: marked (openedBy raw line.indent) rest := by
  simp [marked, Line.opensText, h, openedBy]

/-- A key line ends its value on the same line unless a block scalar follows. -/
theorem openedBy_of_notMem {raw : Str} (h : raw ∉ blockIndicators) (indent : ℕ) :
    openedBy raw indent = none := if_neg h

end RealityCore.Workflow
