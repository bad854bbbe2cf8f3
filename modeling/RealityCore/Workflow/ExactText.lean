import RealityCore.Workflow.AssertExact
import RealityCore.Workflow.Canonical
import RealityCore.Workflow.InFormat
import RealityCore.Workflow.Literals
import RealityCore.Workflow.RunLines

/-!
# The texts that pass the verification

The verification compares trees, so a text passes whenever it is parsed to the expected tree. Its
lines are those of the reviewed file exactly when they are in canonical form.
-/

namespace RealityCore.Workflow

open Outcome (bind_eq_ok_iff)
open Python (Str unlines nonBlankLines utf8Length)

/-- A raw line as its leading spaces and the rest. -/
def Line.ofText (text : Str) : Line :=
  ⟨(text.takeWhile (· == ' ')).length, text.dropWhile (· == ' ')⟩

/-- Lines in canonical form: the first is not indented, a deeper line is two columns deeper, a
colon ends its line or is followed by a space, and values have no leading zero and no block
indicator but the bar. -/
structure CanonicalText (texts : List Str) : Prop where
  first : ∀ line ∈ (texts.map Line.ofText).head?, line.indent = 0
  steps : (texts.map Line.ofText).IsChain Line.Step
  keys : ∀ line ∈ texts.map Line.ofText, line.CanonicalKey

instance : DecidablePred CanonicalText := fun texts =>
  decidable_of_iff ((∀ line ∈ (texts.map Line.ofText).head?, line.indent = 0) ∧
      (texts.map Line.ofText).IsChain Line.Step ∧
      ∀ line ∈ texts.map Line.ofText, line.CanonicalKey)
    ⟨fun h => ⟨h.1, h.2.1, h.2.2⟩, fun h => ⟨h.first, h.steps, h.keys⟩⟩

/-- A line is what its text shows. -/
theorem Line.ofText_text {line : Line} (h : line.content.head? ≠ some ' ') :
    Line.ofText line.text = line := by
  have hdrop := Line.dropWhile_text h
  have hlength := congrArg List.length
    (List.takeWhile_append_dropWhile (p := (· == ' ')) (l := line.text))
  have htake : (line.text.takeWhile (· == ' ')).length = line.indent := by
    rw [List.length_append, hdrop, Line.text, List.length_append, List.length_replicate] at hlength
    exact Nat.add_right_cancel hlength
  rw [Line.ofText, hdrop, htake]

/-- The lines of the parser object are the non-blank lines of the text. -/
theorem Parser.Reads.lines_eq {p : Parser} {text : Str} (h : p.Reads text) :
    (nonBlankLines text).map Line.ofText = p.lines := by
  rw [← h.texts, List.map_map]
  conv_rhs => rw [← List.map_id p.lines]
  apply List.map_congr_left
  exact fun line hline => Line.ofText_text (h.readable line hline).start

set_option maxRecDepth 20000 in
/-- The checks that the expected tree passes: its keys are distinct and each step starts with its
name, and it is in the accepted format. -/
theorem expectedWorkflow_checks :
    (distinctKeys expectedWorkflow = true ∧ settled expectedWorkflow = true) ∧
      expectedWorkflow.inFormat = true := by
  apply of_read fun (tree : Value) => (distinctKeys tree = true ∧ settled tree = true) ∧
    tree.inFormat = true
  · unfold expectedWorkflow expectedSteps
    repeat' with_reducible first
      | apply runStep_ofList | apply dict_cons | apply list_cons | apply texts_cons_append
      | apply texts_cons | apply str_ofList | exact dict_nil | rfl
  · decide +kernel

set_option maxRecDepth 20000 in
/-- The run lines of the expected tree are plain. -/
theorem plainRuns_expectedWorkflow :
    plainRuns (unsafeFragments.map String.toList) wrapperNames expectedWorkflow = true := by
  apply of_read fun (names : List Str) =>
    plainRuns (unsafeFragments.map String.toList) names expectedWorkflow = true
  · unfold wrapperNames
    repeat' with_reducible first | apply texts_cons | exact List.map_nil
  · apply of_read fun (fragments : List Str) => plainRuns fragments _ expectedWorkflow = true
    · unfold unsafeFragments
      repeat' with_reducible first | apply texts_cons | exact List.map_nil
    · apply of_read fun (tree : Value) => plainRuns _ _ tree = true
      · unfold expectedWorkflow expectedSteps
        repeat' with_reducible first
          | apply runStep_ofList | apply dict_cons | apply list_cons | apply texts_cons_append
          | apply texts_cons | apply str_ofList | exact dict_nil | rfl
      · decide +kernel

/-- The expected tree is in the accepted format. -/
theorem expectedWorkflow_wellFormed : expectedWorkflow.WellFormed :=
  Value.wellFormed_of_check _ expectedWorkflow_checks.2

set_option maxRecDepth 20000 in
/-- The lines of the reviewed file are the rendering of the expected tree. -/
theorem reviewedLines_eq :
    (reviewedLines.map String.toList).filter (· ≠ []) =
      (renderValue 0 expectedWorkflow).map Line.text := by
  apply of_read fun (tree : Value) =>
    (reviewedLines.map String.toList).filter (· ≠ []) = (renderValue 0 tree).map Line.text
  · unfold expectedWorkflow expectedSteps
    repeat' with_reducible first
      | apply runStep_ofList | apply dict_cons | apply list_cons | apply texts_cons_append
      | apply texts_cons | apply str_ofList | exact dict_nil | rfl
  · apply of_read fun (texts : List Str) => texts.filter (· ≠ []) = _
    · unfold reviewedLines
      repeat' with_reducible first
        | apply texts_cons_append | apply texts_cons | exact List.map_nil
    · decide +kernel

set_option maxRecDepth 20000 in
/-- The lines of the reviewed file are short, and in canonical form. -/
theorem reviewedLines_checks :
    (∀ text ∈ reviewedLines.map String.toList, text.length ≤ 200) ∧
      CanonicalText ((reviewedLines.map String.toList).filter (· ≠ [])) := by
  apply of_read fun (texts : List Str) =>
    (∀ text ∈ texts, text.length ≤ 200) ∧ CanonicalText (texts.filter (· ≠ []))
  · unfold reviewedLines
    repeat' with_reducible first
      | apply texts_cons_append | apply texts_cons | exact List.map_nil
  · decide +kernel

/-- A character takes at most four bytes. -/
theorem utf8Length_le (text : Str) : utf8Length text ≤ 4 * text.length := by
  unfold utf8Length
  induction text with
  | nil => simp
  | cons c text ih =>
    have hsize := c.utf8Size_le_four
    rw [List.map_cons, List.sum_cons, List.length_cons]
    omega

/-- The lines of the expected tree are short enough. -/
theorem utf8Length_of_mem_renderValue :
    ∀ line ∈ renderValue 0 expectedWorkflow,
      utf8Length (line.text ++ ['\n']) ≤ MAX_LINE_BYTES := by
  intro line hline
  have hmem : line.text ∈ (reviewedLines.map String.toList).filter (· ≠ []) :=
    reviewedLines_eq ▸ List.mem_map_of_mem hline
  have hlength := reviewedLines_checks.1 _ (List.mem_filter.mp hmem).1
  refine (utf8Length_le _).trans ?_
  rw [List.length_append, List.length_singleton, MAX_LINE_BYTES]
  omega

/-- The lines of the expected tree can be written. -/
theorem writable_of_mem_renderValue :
    ∀ line ∈ renderValue 0 expectedWorkflow, line.Writable := fun line hline =>
  (renderValue_printable expectedWorkflow expectedWorkflow_wellFormed 0 rfl line hline).writable
    (utf8Length_of_mem_renderValue line hline)

/-- The lines of the reviewed file have no newline in them. -/
theorem newline_notMem_reviewedLines : ∀ text ∈ reviewedLines.map String.toList, '\n' ∉ text := by
  intro text htext hnewline
  have hmem : text ∈ (renderValue 0 expectedWorkflow).map Line.text := by
    rw [← reviewedLines_eq, List.mem_filter]
    exact ⟨htext, decide_eq_true (List.ne_nil_of_mem hnewline)⟩
  obtain ⟨line, hline, rfl⟩ := List.mem_map.mp hmem
  have hbreak := ((writable_of_mem_renderValue line hline).text_unbroken _ hnewline).1
  exact absurd hbreak (by decide)

/-- The reviewed file is the rendering of the expected tree. -/
theorem nonBlankLines_reviewedText :
    nonBlankLines reviewedText = (renderValue 0 expectedWorkflow).map Line.text := by
  rw [reviewedText, Python.nonBlankLines_unlines newline_notMem_reviewedLines, reviewedLines_eq]

/-- The reviewed file is in canonical form. -/
theorem canonicalText_reviewedText : CanonicalText (nonBlankLines reviewedText) := by
  rw [nonBlankLines_reviewedText, ← reviewedLines_eq]
  exact reviewedLines_checks.2

/-- Canonical lines that are parsed to the expected tree are its rendering. -/
theorem lines_eq_renderValue {text : Str} {p : Parser} (hreads : p.Reads text)
    (hcanonical : CanonicalText (nonBlankLines text)) (hparse : p.parse = .ok expectedWorkflow) :
    p.lines = renderValue 0 expectedWorkflow := by
  have hlines : ∀ line ∈ p.lines, line.Exact := fun line hline =>
    ⟨hreads.readable line hline, hreads.plain line hline,
      hcanonical.keys line (hreads.lines_eq ▸ hline)⟩
  have hhead : p.lines.head p.nonempty ∈ ((nonBlankLines text).map Line.ofText).head? := by
    rw [hreads.lines_eq]
    exact List.head?_eq_some_head p.nonempty
  have hfirst := hcanonical.first _ hhead
  have hparses := Parser.parses_of_parse hreads.noEmptyItem hparse
  rw [hfirst] at hparses
  exact hparses.rendered (hreads.lines_eq ▸ hcanonical.steps) hlines expectedWorkflow_checks.1.2

/-- A text that passes has the non-blank lines of the reviewed file exactly when they are in
canonical form. -/
theorem verifyText_reviewed_iff (isAlnum : Char → Bool) (text : Str)
    (h : verifyText isAlnum text = .ok ()) :
    nonBlankLines text = nonBlankLines reviewedText ↔ CanonicalText (nonBlankLines text) := by
  obtain ⟨p, hinit, h⟩ := bind_eq_ok_iff.mp h
  obtain ⟨value, hparse, h⟩ := bind_eq_ok_iff.mp h
  obtain ⟨⟨⟩, hexact, -⟩ := bind_eq_ok_iff.mp h
  have hreads := Parser.init_reads hinit
  obtain rfl := (assertExact_eq_ok_iff expectedWorkflow_checks.1.1 value _).mp hexact
  constructor
  · intro heq
    rw [heq]
    exact canonicalText_reviewedText
  · intro hcanonical
    rw [nonBlankLines_reviewedText, ← lines_eq_renderValue hreads hcanonical hparse, hreads.texts]

/-- The texts of the reviewed file with a line in place of that for the permission to read. -/
def textsWith (line : String) : List Str :=
  (reviewedLines.take 7 ++ line :: reviewedLines.drop 8).map String.toList

/-- The reviewed file without the space behind the colon of one line. -/
def changedText : Str := unlines (textsWith "  contents:read")

/-- The entries of the expected tree in front of the permissions. -/
def entriesBefore : List (Str × Value) :=
  [("name".toList, .scalar (.str "CI".toList)),
    ("on".toList, .map [("push".toList, .map []), ("pull_request".toList, .map [])])]

/-- The permission to read. -/
def permissions : Value := .map [("contents".toList, .scalar (.str "read".toList))]

/-- The lines in front of that for the permission to read. -/
def linesBefore : List Line := renderEntries 0 entriesBefore ++ [⟨0, "permissions:".toList⟩]

/-- The expected tree has more entries behind the permissions. -/
theorem exists_entries : ∃ after,
    expectedWorkflow = .map (entriesBefore ++ ("permissions".toList, permissions) :: after) ∧
      renderValue 0 expectedWorkflow =
        linesBefore ++ ⟨2, "contents: read".toList⟩ :: renderEntries 0 after := by
  obtain ⟨after, hexpected⟩ : ∃ after,
      expectedWorkflow = .map (entriesBefore ++ ("permissions".toList, permissions) :: after) :=
    ⟨_, rfl⟩
  refine ⟨after, hexpected, ?_⟩
  rw [hexpected]
  rfl

/-- The lines around the permission to read are those of the expected tree. -/
theorem filter_textsWith {line : String} (hline : line.toList ≠ [])
    {after : List (Str × Value)} (hrender : renderValue 0 expectedWorkflow =
      linesBefore ++ ⟨2, "contents: read".toList⟩ :: renderEntries 0 after) :
    (textsWith line).filter (· ≠ []) =
      linesBefore.map Line.text ++ line.toList :: (renderEntries 0 after).map Line.text := by
  have htake : ((reviewedLines.take 7).map String.toList).filter (· ≠ []) =
      linesBefore.map Line.text := by decide
  have hsplit (line : String) (hline : line.toList ≠ []) : (textsWith line).filter (· ≠ []) =
      linesBefore.map Line.text ++
        line.toList :: ((reviewedLines.drop 8).map String.toList).filter (· ≠ []) := by
    rw [textsWith, List.map_append, List.filter_append, htake, List.map_cons,
      List.filter_cons_of_pos (by simpa using hline)]
  have hreviewed := hsplit "  contents: read" (by decide)
  rw [show textsWith "  contents: read" = reviewedLines.map String.toList from rfl,
    reviewedLines_eq, hrender, List.map_append, List.map_cons] at hreviewed
  rw [hsplit line hline, (List.cons.inj (List.append_cancel_left hreviewed)).2]

/-- Without the space behind the colon, the line still holds the permission to read. -/
theorem permissions_parses {following : List Line} (h : Shallow 0 following) :
    Parses (.value [] 0 permissions) [⟨2, "contents:read".toList⟩] following := by
  have hitem : Line.isItem ⟨2, "contents:read".toList⟩ = false := by decide
  refine .nested (show 0 < 2 by decide) (.map ⟨_, rfl, rfl, hitem⟩ ?_)
  refine .entry rfl hitem rfl List.not_mem_nil (.scalar (by decide) (by decide) rfl)
    (.entriesEnd fun line hline hindent => ?_)
  have hle : line.indent ≤ 0 := h line hline
  exact absurd (hindent ▸ hle) (by decide)

/-- The lines with this one among them hold the same entries. -/
theorem changedLines_parses {after : List (Str × Value)}
    (h : EntriesWellFormed (entriesBefore ++ ("permissions".toList, permissions) :: after)) :
    Parses (.block 0 (.map (entriesBefore ++ ("permissions".toList, permissions) :: after)))
      (linesBefore ++ ⟨2, "contents:read".toList⟩ :: renderEntries 0 after) [] := by
  have hfirst : Line.isItem ⟨0, "name: CI".toList⟩ = false := by decide
  have hkey : Line.isItem ⟨0, "permissions:".toList⟩ = false := by decide
  obtain ⟨-, -, -, -, -, -, -, hnew, -, hafter⟩ := id h
  have hstop : Shallow 0 (renderEntries 0 after ++ []) :=
    Outside.shallow_entries (by simp [Outside]) after
  have hentries : Parses (.entries 0 (("permissions".toList, permissions) :: after))
      (⟨0, "permissions:".toList⟩ :: ⟨2, "contents:read".toList⟩ :: renderEntries 0 after) [] :=
    .entry rfl hkey rfl hnew (permissions_parses hstop)
      (renderEntries_parses after hafter 0 [] (by simp [Outside]))
  have hdepth : Shallow 0 (⟨0, "permissions:".toList⟩ :: ⟨2, "contents:read".toList⟩ ::
      renderEntries 0 after ++ []) := by
    intro line hline
    obtain rfl := Option.some.inj hline
    exact le_rfl
  have hall := renderEntries_append_parses h hdepth hentries
  rw [linesBefore, List.append_assoc, List.singleton_append]
  exact .map ⟨_, rfl, rfl, hfirst⟩ hall

/-- The changed file is parsed to the expected tree. -/
theorem parse_changedText :
    ∃ p, Parser.init changedText = .ok p ∧ p.parse = .ok expectedWorkflow := by
  obtain ⟨after, hexpected, hrender⟩ := exists_entries
  have hlines : ∀ line ∈ linesBefore ++ ⟨2, "contents:read".toList⟩ :: renderEntries 0 after,
      line.Writable := by
    have hwritable := hrender ▸ writable_of_mem_renderValue
    intro line hline
    rcases List.mem_append.mp hline with hbefore | hline
    · exact hwritable line (List.mem_append_left _ hbefore)
    rcases List.mem_cons.mp hline with rfl | hafter
    · exact ⟨⟨rfl, by decide, by decide, rfl, contentChecks_iff.mpr (by decide)⟩, by decide,
        Python.forall_mem_of_all (by decide)⟩
    · exact hwritable line (List.mem_append_right _ (List.mem_cons_of_mem _ hafter))
  have htexts : (textsWith "  contents:read").filter (· ≠ []) =
      (linesBefore ++ ⟨2, "contents:read".toList⟩ :: renderEntries 0 after).map Line.text := by
    rw [filter_textsWith (by decide) hrender, List.map_append, List.map_cons]
    rfl
  refine ⟨_, Parser.init_unlines (by simp) ?_ hlines htexts, ?_⟩
  · exact (List.length_map _).le.trans (by decide)
  refine (Parser.parse_eq_ok_iff fun line hline hdash => ?_).mpr ?_
  · have htrimmed := (hlines line hline).readable.trimmed
    rw [hdash] at htrimmed
    exact absurd htrimmed (by decide)
  · have hformat := expectedWorkflow_wellFormed
    rw [hexpected] at hformat ⊢
    exact changedLines_parses hformat

/-- The changed file passes the verification. -/
theorem verifyText_changedText : verifyText Char.isAlphanum changedText = .ok () := by
  obtain ⟨p, hinit, hparse⟩ := parse_changedText
  have hexact := (assertExact_eq_ok_iff expectedWorkflow_checks.1.1 expectedWorkflow
    "workflow".toList).mpr rfl
  exact bind_eq_ok_iff.mpr ⟨p, hinit, bind_eq_ok_iff.mpr ⟨expectedWorkflow, hparse,
    bind_eq_ok_iff.mpr ⟨(), hexact, verifyRunLines_eq_ok plainRuns_expectedWorkflow⟩⟩⟩

/-- The lines of the changed file have no newline in them. -/
theorem newline_notMem_changedTexts : ∀ text ∈ textsWith "  contents:read", '\n' ∉ text := by
  intro text htext
  obtain ⟨line, hline, rfl⟩ := List.mem_map.mp htext
  have hreviewed (h : line ∈ reviewedLines) : '\n' ∉ line.toList :=
    newline_notMem_reviewedLines _ (List.mem_map_of_mem h)
  rcases List.mem_append.mp hline with hbefore | hline
  · exact hreviewed (List.mem_of_mem_take hbefore)
  rcases List.mem_cons.mp hline with rfl | hafter
  · decide
  · exact hreviewed (List.mem_of_mem_drop hafter)

/-- The non-blank lines of the changed file are those of the reviewed one but for one. -/
theorem nonBlankLines_changedText : ∃ front rest,
    nonBlankLines changedText = front ++ "  contents:read".toList :: rest ∧
      nonBlankLines reviewedText = front ++ "  contents: read".toList :: rest := by
  obtain ⟨after, -, hrender⟩ := exists_entries
  refine ⟨linesBefore.map Line.text, (renderEntries 0 after).map Line.text, ?_, ?_⟩
  · rw [changedText, Python.nonBlankLines_unlines newline_notMem_changedTexts,
      filter_textsWith (by decide) hrender]
  · rw [nonBlankLines_reviewedText, hrender, List.map_append, List.map_cons]
    rfl

/-- The changed file has other lines than the reviewed one. -/
theorem nonBlankLines_changedText_ne :
    nonBlankLines changedText ≠ nonBlankLines reviewedText := by
  obtain ⟨front, rest, hchanged, hreviewed⟩ := nonBlankLines_changedText
  rw [hchanged, hreviewed]
  intro heq
  exact absurd (List.cons.inj (List.append_cancel_left heq)).1 (by decide)

/-- The changed file passes, so it is not in canonical form. -/
theorem verifyText_reviewed_iff_changedText :
    nonBlankLines changedText ≠ nonBlankLines reviewedText ∧
      ¬CanonicalText (nonBlankLines changedText) := by
  have hiff := verifyText_reviewed_iff Char.isAlphanum changedText verifyText_changedText
  exact ⟨nonBlankLines_changedText_ne, hiff.not.mp nonBlankLines_changedText_ne⟩

/-- The changed file passes, although one of its lines is not that of the reviewed file. -/
theorem changedText_passes :
    verifyText Char.isAlphanum changedText = .ok () ∧
      nonBlankLines changedText ≠ nonBlankLines reviewedText ∧
      ∃ front rest, nonBlankLines changedText = front ++ "  contents:read".toList :: rest ∧
        nonBlankLines reviewedText = front ++ "  contents: read".toList :: rest :=
  ⟨verifyText_changedText, nonBlankLines_changedText_ne, nonBlankLines_changedText⟩

end RealityCore.Workflow
