import RealityCore.Workflow.ExactText

/-!
# A reader that knows only newlines

The parser breaks its text where the language does, at ten different characters. In a text that it
accepts only the newline is left of these, so it sees the lines that a reader of newlines sees.
-/

namespace RealityCore.Workflow

open Python (Str isLineBreak nonBlankLines)

/-- The lines of a reader that breaks a text at newlines only, without the empty ones. -/
def newlineLines (text : Str) : List Line :=
  ((text.splitOn '\n').filter (· ≠ [])).map Line.ofText

/-- The parser object holds the lines of the reader. -/
theorem Parser.Reads.eq_newlineLines {p : Parser} {text : Str} (h : p.Reads text) :
    p.lines = newlineLines text := by
  rw [newlineLines, ← nonBlankLines, h.lines_eq]

/-- A parser object holds the lines that its text has between newlines: each is an even number of
spaces and a content, and neither a content nor the text holds any other line break. -/
theorem Parser.lines_eq_newlineLines {text : Str} {p : Parser} (h : Parser.init text = .ok p) :
    p.lines = newlineLines text ∧
      (∀ line ∈ p.lines, line.indent % 2 = 0 ∧ ∀ c ∈ line.content, isLineBreak c = false) ∧
      ∀ c ∈ text, isLineBreak c = true → c = '\n' := by
  have hreads := Parser.init_reads h
  refine ⟨hreads.eq_newlineLines, fun line hline => ?_, Parser.newline_of_init h⟩
  exact ⟨(hreads.readable line hline).even, hreads.unbroken line hline⟩

/-- Two entries with a blank line between them, and no newline at the end. -/
def spacedText : Str := "on:\n\n  push: main".toList

/-- The lines of the text with a blank line. -/
theorem Parser.lines_eq_newlineLines_spacedText :
    ∃ p, Parser.init spacedText = .ok p ∧ p.lines = [⟨0, "on:".toList⟩, ⟨2, "push: main".toList⟩] ∧
      p.lines = newlineLines spacedText := by
  have hinit : Parser.init spacedText =
      .ok ⟨[⟨0, "on:".toList⟩, ⟨2, "push: main".toList⟩], List.cons_ne_nil _ _⟩ := rfl
  exact ⟨_, hinit, rfl, (Parser.lines_eq_newlineLines hinit).1⟩

end RealityCore.Workflow
