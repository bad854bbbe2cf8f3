import RealityCore.Workflow.Scalar
import Mathlib.Data.List.ReduceOption

/-!
# The lines of a workflow

The parser object is built from a text line by line: a blank line is dropped, and every other
line becomes its indentation and its content after a fixed list of checks. The content of an
accepted line determines the raw line.
-/

namespace RealityCore.Workflow

open Outcome (bind_eq_ok_iff guard_eq_ok_iff mapM_eq_ok_iff)
open Python (Str isSpace rstrip strip isLineBreak splitLinesKeepEnds dropNewline utf8Length
  nonBlankLines)
open Regex (Pattern search)

/-- A line that is not blank: its indentation and what follows it. -/
structure Line where
  indent : ℕ
  content : Str
  deriving DecidableEq

def MAX_WORKFLOW_LINES : ℕ := 2048
def MAX_LINE_BYTES : ℕ := 16 * 1024

/-- `(^|\s)[&*][A-Za-z0-9_.-]+` -/
def ANCHOR_RE : Pattern Char := .markedRun isSpace (fun c => c == '&' || c == '*') isKeyChar

/-- `raise WorkflowError(f"workflow line {number} {problem}")` -/
def rejectLine {α : Type} (number : ℕ) (problem : String) : Except Failure α :=
  .error (.workflowError ("workflow line ".toList ++ Nat.toDigits 10 number ++ ' ' ::
    problem.toList))

/-- The checks of one raw line; a blank line gives no line. -/
def readLine (number : ℕ) (raw : Str) : Except Failure (Option Line) :=
  if MAX_LINE_BYTES < utf8Length raw then rejectLine number "is too long"
  else
    let line := dropNewline raw
    if rstrip line ≠ line then rejectLine number "has trailing whitespace"
    else if strip line = [] then .ok none
    else
      let indent := line.length - (line.dropWhile (· == ' ')).length
      if indent % 2 ≠ 0 then rejectLine number "has non-canonical indentation"
      else
        let content := line.drop indent
        if content.head? = some '#' ∨ " #".toList <:+: content then
          reject "comments are not accepted in the active workflow"
        else if "<<".toList <:+: content ∨ (search ANCHOR_RE content).isSome then
          reject "anchors, aliases, and heredocs are not accepted"
        else .ok (some ⟨indent, content⟩)

/-- `_Parser`: the lines of an accepted text, of which there is at least one. -/
structure Parser where
  lines : List Line
  nonempty : lines ≠ []

/-- `_Parser.__init__(text)` -/
def Parser.init (text : Str) : Except Failure Parser :=
  if '\r' ∈ text ∨ '\t' ∈ text then reject "CR and tab characters are not accepted"
  else
    let rawLines := splitLinesKeepEnds text
    if MAX_WORKFLOW_LINES < rawLines.length then
      reject "workflow line count exceeded the bounded limit"
    else do
      let lines ← (rawLines.zipIdx 1).mapM fun item => readLine item.2 item.1
      match lines.reduceOption with
      | [] => reject "workflow is empty"
      | line :: rest => .ok ⟨line :: rest, List.cons_ne_nil line rest⟩

/-! ## One line -/

/-- The line as it stands in the text. -/
def Line.text (line : Line) : Str := List.replicate line.indent ' ' ++ line.content

/-- The content checks of a line: no comment, no heredoc, no anchor and no alias. -/
structure ContentChecks (content : Str) : Prop where
  comment : content.head? ≠ some '#' ∧ ¬" #".toList <:+: content
  anchor : ¬"<<".toList <:+: content ∧ ¬Regex.HasMarkedRun isSpace (fun c => c == '&' || c == '*')
    isKeyChar content

/-- What the checks say about a line that is not blank. -/
structure Line.Readable (line : Line) : Prop where
  even : line.indent % 2 = 0
  nonempty : line.content ≠ []
  start : line.content.head? ≠ some ' '
  trimmed : rstrip line.content = line.content
  checks : ContentChecks line.content

/-- The leading spaces of a line are its indentation. -/
theorem Line.dropWhile_text {line : Line} (h : line.content.head? ≠ some ' ') :
    line.text.dropWhile (· == ' ') = line.content := by
  have hspaces : ∀ c ∈ List.replicate line.indent ' ', (c == ' ') = true := fun c hc => by
    simpa using List.eq_of_mem_replicate hc
  rw [Line.text, List.dropWhile_append_of_pos hspaces]
  cases hcontent : line.content with
  | nil => rfl
  | cons c rest =>
    have hc : c ≠ ' ' := fun heq => h (by rw [hcontent, heq]; rfl)
    exact List.dropWhile_cons_of_neg (by simpa using hc)

/-- The trailing white space of a line is that of its content. -/
theorem Line.rstrip_text {line : Line} (h : line.content ≠ []) :
    rstrip line.text = line.text ↔ rstrip line.content = line.content := by
  have hne : line.text ≠ [] := List.append_ne_nil_of_right_ne_nil _ h
  have hlast : line.text.getLast hne = line.content.getLast h := List.getLast_append_of_ne_nil hne h
  rw [Python.rstrip_eq_self_iff, Python.rstrip_eq_self_iff]
  exact ⟨fun hline _ => hlast ▸ hline hne, fun hcontent _ => hlast ▸ hcontent h⟩

/-- The text of a readable line is not empty. -/
theorem Line.Readable.text_ne_nil {line : Line} (h : line.Readable) : line.text ≠ [] :=
  List.append_ne_nil_of_right_ne_nil _ h.nonempty

/-- The text of a readable line has no trailing white space and is not blank. -/
theorem Line.Readable.text {line : Line} (h : line.Readable) :
    rstrip line.text = line.text ∧ strip line.text ≠ [] := by
  have htrimmed := (Line.rstrip_text h.nonempty).mpr h.trimmed
  refine ⟨htrimmed, ?_⟩
  rw [Ne, Python.strip_eq_nil_iff htrimmed]
  exact h.text_ne_nil

/-- A text is its leading spaces followed by the rest. -/
theorem replicate_append_dropWhile (s : Str) :
    List.replicate (s.length - (s.dropWhile (· == ' ')).length) ' ' ++ s.dropWhile (· == ' ') =
      s := by
  have hspaces : s.takeWhile (· == ' ') = List.replicate (s.takeWhile (· == ' ')).length ' ' :=
    List.eq_replicate_of_mem fun c hc => by simpa using List.mem_takeWhile_imp hc
  have hlength : s.length - (s.dropWhile (· == ' ')).length = (s.takeWhile (· == ' ')).length := by
    have := congrArg List.length (List.takeWhile_append_dropWhile (p := (· == ' ')) (l := s))
    rw [List.length_append] at this
    omega
  rw [hlength, ← hspaces, List.takeWhile_append_dropWhile]

/-- Dropping the indentation drops the leading spaces. -/
theorem drop_indent (s : Str) :
    s.drop (s.length - (s.dropWhile (· == ' ')).length) = s.dropWhile (· == ' ') := by
  generalize hn : s.length - (s.dropWhile (· == ' ')).length = n
  calc
    s.drop n = (List.replicate n ' ' ++ s.dropWhile (· == ' ')).drop n := by
      rw [← hn, replicate_append_dropWhile]
    _ = s.dropWhile (· == ' ') := by simp

/-- What is left without the leading spaces starts with another character. -/
theorem head?_dropWhile_ne (s : Str) : (s.dropWhile (· == ' ')).head? ≠ some ' ' := by
  intro h
  have := List.head?_dropWhile_not (· == ' ') s
  simp [h] at this

/-- A trimmed text that is not blank does not consist of spaces. -/
theorem dropWhile_ne_nil_of_strip {s : Str} (htrimmed : rstrip s = s) (hblank : strip s ≠ []) :
    s.dropWhile (· == ' ') ≠ [] := by
  intro hnil
  have hne : s ≠ [] := fun h => hblank ((Python.strip_eq_nil_iff htrimmed).mpr h)
  have hspace := List.dropWhile_eq_nil_iff.mp hnil _ (List.getLast_mem hne)
  have hlast := Python.rstrip_eq_self_iff.mp htrimmed hne
  rw [eq_of_beq hspace] at hlast
  exact absurd hlast (by decide)

/-- The executable content checks decide their statement. -/
theorem contentChecks_iff {content : Str} :
    ContentChecks content ↔ ¬(content.head? = some '#' ∨ " #".toList <:+: content) ∧
      ¬("<<".toList <:+: content ∨ (search ANCHOR_RE content).isSome = true) := by
  rw [ANCHOR_RE, Regex.search_markedRun_isSome_iff, not_or, not_or]
  exact ⟨fun h => ⟨h.comment, h.anchor⟩, fun h => ⟨h.1, h.2⟩⟩

/-- A raw line is read as a line exactly when it is the text of the line, which is readable. -/
theorem readLine_eq_some_iff {number : ℕ} {raw : Str} {line : Line} :
    readLine number raw = .ok (some line) ↔
      utf8Length raw ≤ MAX_LINE_BYTES ∧ dropNewline raw = line.text ∧ line.Readable := by
  simp only [readLine, rejectLine, reject, guard_eq_ok_iff, not_lt, Ne, not_not]
  refine and_congr_right fun _ => ?_
  generalize dropNewline raw = s
  constructor
  · rintro ⟨htrimmed, h⟩
    by_cases hblank : strip s = []
    · rw [if_pos hblank] at h
      exact absurd (Except.ok.inj h) (by simp)
    rw [if_neg hblank, guard_eq_ok_iff, guard_eq_ok_iff, guard_eq_ok_iff, drop_indent, not_not] at h
    obtain ⟨heven, hcomment, hanchor, h⟩ := h
    have hline := Option.some.inj (Except.ok.inj h)
    have htext : line.text = s := by rw [← hline]; exact replicate_append_dropWhile s
    have hcontent : line.content = s.dropWhile (· == ' ') := by rw [← hline]
    have hindent : line.indent = s.length - (s.dropWhile (· == ' ')).length := by rw [← hline]
    have hne : line.content ≠ [] := hcontent ▸ dropWhile_ne_nil_of_strip htrimmed hblank
    exact ⟨htext.symm, hindent ▸ heven, hne, hcontent ▸ head?_dropWhile_ne s,
      (Line.rstrip_text hne).mp (htext.symm ▸ htrimmed),
      hcontent ▸ contentChecks_iff.mpr ⟨hcomment, hanchor⟩⟩
  · rintro ⟨rfl, hline⟩
    obtain ⟨hcomment, hanchor⟩ := contentChecks_iff.mp hline.checks
    have hindent : line.text.length - line.content.length = line.indent := by simp [Line.text]
    refine ⟨hline.text.1, ?_⟩
    rw [if_neg hline.text.2, drop_indent, Line.dropWhile_text hline.start, hindent,
      if_neg (not_not.mpr hline.even), if_neg hcomment, if_neg hanchor]

/-- A raw line is dropped exactly when it holds nothing but its newline. -/
theorem readLine_eq_none_iff {number : ℕ} {raw : Str} :
    readLine number raw = .ok none ↔ utf8Length raw ≤ MAX_LINE_BYTES ∧ dropNewline raw = [] := by
  simp only [readLine, rejectLine, reject, guard_eq_ok_iff, not_lt, Ne, not_not]
  refine and_congr_right fun _ => ?_
  generalize dropNewline raw = s
  constructor
  · rintro ⟨htrimmed, h⟩
    rw [← Python.strip_eq_nil_iff htrimmed]
    by_contra hblank
    rw [if_neg hblank, guard_eq_ok_iff, guard_eq_ok_iff, guard_eq_ok_iff] at h
    exact absurd (Except.ok.inj h.2.2.2) (by simp)
  · rintro rfl
    exact ⟨rfl, rfl⟩

/-! ## The whole text -/

/-- The lines that are read are the texts that are not empty. -/
theorem map_text_reduceOption {items : List (Str × ℕ)} {results : List (Option Line)}
    (h : List.Forall₂ (fun item result => readLine item.2 item.1 = .ok result) items results) :
    results.reduceOption.map Line.text =
      (items.map fun item => dropNewline item.1).filter (fun line => line ≠ []) := by
  induction h with
  | nil => rfl
  | @cons item result items results hread _ ih =>
    cases result with
    | none =>
      rw [List.reduceOption_cons_of_none, ih, List.map_cons, List.filter_cons_of_neg]
      simp [(readLine_eq_none_iff.mp hread).2]
    | some line =>
      obtain ⟨-, htext, hline⟩ := readLine_eq_some_iff.mp hread
      rw [List.reduceOption_cons_of_some, List.map_cons, ih, List.map_cons, htext,
        List.filter_cons_of_pos]
      exact decide_eq_true hline.text_ne_nil

/-- Every read line is readable. -/
theorem readable_of_mem_reduceOption {items : List (Str × ℕ)} {results : List (Option Line)}
    (h : List.Forall₂ (fun item result => readLine item.2 item.1 = .ok result) items results)
    {line : Line} (hline : line ∈ results.reduceOption) : line.Readable := by
  obtain ⟨item, -, hread⟩ := Outcome.exists_of_forall₂_right h (List.reduceOption_mem_iff.mp hline)
  exact (readLine_eq_some_iff.mp hread).2.2

/-- What the parser object holds: the lines of the text, each readable and on one line. -/
structure Parser.Reads (p : Parser) (text : Str) : Prop where
  texts : p.lines.map Line.text = nonBlankLines text
  readable : ∀ line ∈ p.lines, line.Readable
  unbroken : ∀ line ∈ p.lines, ∀ c ∈ line.content, isLineBreak c = false

/-- Building the parser object reads the kept lines one by one. -/
theorem Parser.exists_results_of_init {text : Str} {p : Parser} (h : Parser.init text = .ok p) :
    '\r' ∉ text ∧ ∃ results, results.reduceOption = p.lines ∧
      List.Forall₂ (fun item result => readLine item.2 item.1 = .ok result)
        ((splitLinesKeepEnds text).zipIdx 1) results := by
  simp only [Parser.init, reject, guard_eq_ok_iff, not_or] at h
  obtain ⟨⟨hcr, -⟩, -, h⟩ := h
  obtain ⟨results, hresults, h⟩ := bind_eq_ok_iff.mp h
  refine ⟨hcr, results, ?_, mapM_eq_ok_iff.mp hresults⟩
  split at h
  · exact absurd h (by simp)
  · next heq => rw [heq, ← Except.ok.inj h]

/-- A text of a parser object holds no line break but the newline: any other one would end a kept
line, and then be white space at its end. -/
theorem Parser.newline_of_init {text : Str} {p : Parser} (h : Parser.init text = .ok p) :
    ∀ c ∈ text, isLineBreak c = true → c = '\n' := by
  obtain ⟨hcr, results, -, hread⟩ := Parser.exists_results_of_init h
  refine Python.newline_of_isLineBreak hcr fun raw hraw => ?_
  rw [← List.zipIdx_map_fst 1 (splitLinesKeepEnds text)] at hraw
  obtain ⟨item, hitem, rfl⟩ := List.mem_map.mp hraw
  obtain ⟨result, -, hread⟩ := Outcome.exists_of_forall₂_left hread hitem
  cases result with
  | none => rw [(readLine_eq_none_iff.mp hread).2]; rfl
  | some line =>
    obtain ⟨-, htext, hline⟩ := readLine_eq_some_iff.mp hread
    rw [htext]
    exact hline.text.1

/-- Building the parser object reads the text. -/
theorem Parser.init_reads {text : Str} {p : Parser} (h : Parser.init text = .ok p) :
    p.Reads text := by
  have hnewline := Parser.newline_of_init h
  obtain ⟨-, results, hlines, hread⟩ := Parser.exists_results_of_init h
  have htexts : p.lines.map Line.text = nonBlankLines text := by
    rw [← hlines, map_text_reduceOption hread, Python.nonBlankLines_eq hnewline,
      ← List.zipIdx_map_fst 1 (splitLinesKeepEnds text), List.map_map]
    simp [Function.comp_def]
  refine ⟨htexts, fun line hline => readable_of_mem_reduceOption hread (hlines ▸ hline), ?_⟩
  intro line hline c hc
  have hpiece : line.text ∈ text.splitOn '\n' :=
    (List.mem_filter.mp (htexts ▸ List.mem_map_of_mem hline)).1
  obtain ⟨hmem, hne⟩ := Python.of_mem_splitOn_newline hpiece c (List.mem_append_right _ hc)
  exact Bool.eq_false_iff.mpr fun hbreak => hne (hnewline c hmem hbreak)

/-- A line that a text can hold: readable, short enough and without control characters. -/
structure Line.Writable (line : Line) : Prop where
  readable : line.Readable
  short : utf8Length (line.text ++ ['\n']) ≤ MAX_LINE_BYTES
  unbroken : ∀ c ∈ line.content, isLineBreak c = false ∧ c ≠ '\t'

/-- The text of a writable line holds no line break and no tab. -/
theorem Line.Writable.text_unbroken {line : Line} (h : line.Writable) :
    ∀ c ∈ line.text, isLineBreak c = false ∧ c ≠ '\t' := by
  intro c hc
  rcases List.mem_append.mp hc with hc | hc
  · rw [List.eq_of_mem_replicate hc]
    decide
  · exact h.unbroken c hc

/-- Written lines are read one by one, and empty ones give no line. -/
theorem readLine_written {texts : List Str} {lines : List Line}
    (hlines : ∀ line ∈ lines, line.Writable)
    (htexts : texts.filter (· ≠ []) = lines.map Line.text) (n : ℕ) :
    ∃ results, results.reduceOption = lines ∧
      List.Forall₂ (fun item result => readLine item.2 item.1 = .ok result)
        ((texts.map (· ++ ['\n'])).zipIdx n) results := by
  induction texts generalizing lines n with
  | nil =>
    obtain rfl := List.map_eq_nil_iff.mp htexts.symm
    exact ⟨[], rfl, .nil⟩
  | cons text texts ih =>
    by_cases hempty : text = []
    · rw [List.filter_cons_of_neg (by simpa using hempty)] at htexts
      obtain ⟨results, hresults, hread⟩ := ih hlines htexts (n + 1)
      refine ⟨none :: results, by rwa [List.reduceOption_cons_of_none], ?_⟩
      rw [List.map_cons, List.zipIdx_cons, hempty]
      have hshort : utf8Length ['\n'] ≤ MAX_LINE_BYTES := by decide
      exact .cons (readLine_eq_none_iff.mpr ⟨hshort, rfl⟩) hread
    · rw [List.filter_cons_of_pos (by simpa using hempty)] at htexts
      obtain ⟨line, rest, rfl, htext, hrest⟩ := List.map_eq_cons_iff.mp htexts.symm
      obtain ⟨hline, hlines⟩ := List.forall_mem_cons.mp hlines
      obtain ⟨results, hresults, hread⟩ := ih hlines hrest.symm (n + 1)
      refine ⟨some line :: results, by rw [List.reduceOption_cons_of_some, hresults], ?_⟩
      rw [List.map_cons, List.zipIdx_cons, ← htext]
      refine .cons (readLine_eq_some_iff.mpr ⟨hline.short, ?_, hline.readable⟩) hread
      exact Python.dropNewline_append_newline line.text

/-- The text of some lines, with empty ones among them, is read as these lines. -/
theorem Parser.init_unlines {texts : List Str} {lines : List Line} (hne : lines ≠ [])
    (hcount : texts.length ≤ MAX_WORKFLOW_LINES) (hlines : ∀ line ∈ lines, line.Writable)
    (htexts : texts.filter (· ≠ []) = lines.map Line.text) :
    Parser.init (Python.unlines texts) = .ok ⟨lines, hne⟩ := by
  have hchar : ∀ text ∈ texts, ∀ c ∈ text, isLineBreak c = false ∧ c ≠ '\t' := by
    intro text htext c hc
    have hmem : text ∈ lines.map Line.text := by
      rw [← htexts, List.mem_filter]
      exact ⟨htext, by simpa using List.ne_nil_of_mem hc⟩
    obtain ⟨line, hline, rfl⟩ := List.mem_map.mp hmem
    exact (hlines line hline).text_unbroken c hc
  have hsplit : splitLinesKeepEnds (Python.unlines texts) = texts.map (· ++ ['\n']) :=
    Python.splitLinesKeepEnds_unlines fun text htext c hc => (hchar text htext c hc).1
  have hcontrol : ¬('\r' ∈ Python.unlines texts ∨ '\t' ∈ Python.unlines texts) := by
    simp only [Python.unlines, List.mem_flatMap, List.mem_append, List.mem_singleton]
    rintro (⟨text, htext, hc | hc⟩ | ⟨text, htext, hc | hc⟩)
    · exact absurd (hchar text htext _ hc).1 (by decide)
    · exact absurd hc (by decide)
    · exact (hchar text htext _ hc).2 rfl
    · exact absurd hc (by decide)
  obtain ⟨results, hresults, hforall⟩ := readLine_written hlines htexts 1
  have hread := mapM_eq_ok_iff.mpr hforall
  rw [Parser.init, if_neg hcontrol, hsplit]
  simp only [List.length_map, if_neg (not_lt.mpr hcount), hread]
  obtain ⟨line, rest, rfl⟩ := List.exists_cons_of_ne_nil hne
  simp only [bind, Except.bind, hresults]

/-- The text of some lines is read as these lines. -/
theorem Parser.init_lines {lines : List Line} (hne : lines ≠ [])
    (hcount : lines.length ≤ MAX_WORKFLOW_LINES) (hlines : ∀ line ∈ lines, line.Writable) :
    Parser.init (Python.unlines (lines.map Line.text)) = .ok ⟨lines, hne⟩ := by
  refine Parser.init_unlines hne (by rwa [List.length_map]) hlines ?_
  rw [List.filter_eq_self]
  refine List.forall_mem_map.mpr fun line hline => ?_
  exact decide_eq_true (hlines line hline).readable.text_ne_nil

end RealityCore.Workflow
