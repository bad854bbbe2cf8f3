import RealityCore.Workflow.RenderParses

/-!
# The round trip through canonical texts

The line checks of the values carry over to the lines that hold them: what stands in front of a
value on its line has none of the characters that a check looks for.
-/

namespace RealityCore.Workflow

open Python (Str Dict isSpace isLineBreak rstrip splitLines utf8Length)

/-- A character with which no comment, heredoc, anchor or alias starts. -/
def Harmless (c : Char) : Prop := c ≠ '#' ∧ c ≠ '<' ∧ c ≠ '&' ∧ c ≠ '*'

/-- A character that is not in the front part of a text stands in its rear part. -/
theorem exists_append_of_notMem {α : Type*} {front back lead raw : List α} {c : α}
    (h : front ++ c :: back = lead ++ raw) (hc : c ∉ lead) :
    ∃ mid, front = lead ++ mid ∧ raw = mid ++ c :: back := by
  rcases List.append_eq_append_iff.mp h with ⟨rest, hlead, hback⟩ | ⟨mid, hfront, hraw⟩
  · cases rest with
    | nil => exact ⟨[], by simpa using hlead.symm, by simpa using hback.symm⟩
    | cons d rest =>
      obtain ⟨rfl, -⟩ := List.cons.inj hback
      exact absurd (hlead ▸ List.mem_append_right _ List.mem_cons_self) hc
  · exact ⟨mid, hfront, hraw⟩

/-- Harmless characters in front of a text keep its checks. -/
theorem ContentChecks.append {lead raw : Str} (hlead : ∀ c ∈ lead, Harmless c)
    (h : ContentChecks raw) : ContentChecks (lead ++ raw) := by
  refine ⟨⟨?_, ?_⟩, ?_, ?_⟩
  · cases lead with
    | nil => exact h.comment.1
    | cons c lead => exact fun hc => (hlead c List.mem_cons_self).1 (Option.some.inj hc)
  · rintro ⟨front, back, heq⟩
    have hsplit : (front ++ [' ']) ++ '#' :: back = lead ++ raw := by simpa using heq
    obtain ⟨mid, hfront, hraw⟩ := exists_append_of_notMem hsplit fun hc => (hlead _ hc).1 rfl
    rcases List.eq_nil_or_concat mid with rfl | ⟨mid, c, rfl⟩
    · exact h.comment.1 (by rw [hraw]; rfl)
    · rw [List.concat_eq_append, ← List.append_assoc] at hfront
      obtain ⟨-, hc⟩ := List.append_inj' hfront rfl
      refine h.comment.2 ⟨mid, back, ?_⟩
      rw [hraw, ← List.singleton_inj.mp hc]
      simp
  · rintro ⟨front, back, heq⟩
    have hsplit : front ++ '<' :: '<' :: back = lead ++ raw := by simpa using heq
    obtain ⟨mid, -, hraw⟩ := exists_append_of_notMem hsplit fun hc => (hlead _ hc).2.1 rfl
    exact h.anchor.1 ⟨mid, back, by simp [hraw]⟩
  · rintro ⟨front, m, c, rest, heq, hfront, hm, hc⟩
    have hnot : m ∉ lead := fun hmem => by
      have hharmless := hlead m hmem
      simp [hharmless.2.2.1, hharmless.2.2.2] at hm
    obtain ⟨mid, rfl, hraw⟩ := exists_append_of_notMem heq.symm hnot
    refine h.anchor.2 ⟨mid, m, c, rest, hraw, fun b hb => hfront b ?_, hm, hc⟩
    rw [List.getLast?_append_of_ne_nil]
    · exact hb
    · rintro rfl
      simp at hb

/-- A text of harmless characters passes the checks. -/
theorem contentChecks_of_harmless {text : Str} (h : ∀ c ∈ text, Harmless c) :
    ContentChecks text := by
  have hnil : ContentChecks [] := contentChecks_iff.mpr (by decide)
  rw [← List.append_nil text]
  exact hnil.append h

/-- A character that may stand in front of a value on its line. -/
def Leading (c : Char) : Prop := Harmless c ∧ isLineBreak c = false ∧ c ≠ '\t'

instance (c : Char) : Decidable (Harmless c) :=
  inferInstanceAs (Decidable (_ ∧ _ ∧ _ ∧ _))

instance (c : Char) : Decidable (Leading c) :=
  inferInstanceAs (Decidable (_ ∧ _ ∧ _))

/-- A key character may stand in front of a value. -/
theorem leading_of_isKeyChar {c : Char} (h : isKeyChar c = true) : Leading c := by
  have hne : ∀ d, isKeyChar d = false → c ≠ d := by
    rintro d hd rfl
    exact absurd (h.symm.trans hd) (by decide)
  have hbreak : isLineBreak c = false := by
    rw [Bool.eq_false_iff]
    intro hbreak
    exact absurd ((Python.isSpace_of_isLineBreak hbreak).symm.trans (isSpace_of_isKeyChar h))
      (by decide)
  exact ⟨⟨hne _ (by decide), hne _ (by decide), hne _ (by decide), hne _ (by decide)⟩, hbreak,
    hne _ (by decide)⟩

/-- A text of leading characters that does not end in white space passes the line checks. -/
theorem lineChecks_of_leading {text : Str} (h : ∀ c ∈ text, Leading c)
    (htrimmed : rstrip text = text) : LineChecks text :=
  ⟨fun c hc => (h c hc).2, htrimmed, contentChecks_of_harmless fun c hc => (h c hc).1⟩

/-- Leading characters in front of a value keep its line checks. -/
theorem LineChecks.append {lead raw : Str} (hlead : ∀ c ∈ lead, Leading c) (hne : raw ≠ [])
    (h : LineChecks raw) : LineChecks (lead ++ raw) where
  unbroken c hc := (List.mem_append.mp hc).elim (fun hc => (hlead c hc).2) (h.unbroken c)
  trimmed := by
    have hne' : lead ++ raw ≠ [] := List.append_ne_nil_of_right_ne_nil _ hne
    rw [Python.rstrip_eq_self_iff]
    intro _
    rw [List.getLast_append_of_ne_nil hne' hne]
    exact Python.rstrip_eq_self_iff.mp h.trimmed hne
  content := h.content.append fun c hc => (hlead c hc).1

/-- A text of key characters passes the line checks. -/
theorem lineChecks_of_isKeyChar {text : Str} (h : ∀ c ∈ text, isKeyChar c = true) :
    LineChecks text := by
  refine lineChecks_of_leading (fun c hc => leading_of_isKeyChar (h c hc)) ?_
  rw [Python.rstrip_eq_self_iff]
  exact fun hne => isSpace_of_isKeyChar (h _ (List.getLast_mem hne))

/-- The text of a value behind its key passes the line checks. -/
theorem Value.WellFormed.raw {value : Value} (h : value.WellFormed) : LineChecks value.raw := by
  have hnil : LineChecks [] := lineChecks_of_isKeyChar (by simp)
  match value with
  | .map _ => exact hnil
  | .list _ => exact hnil
  | .scalar (.bool b) => cases b <;> exact lineChecks_of_isKeyChar (List.all_eq_true.mp (by decide))
  | .scalar (.int n) =>
    refine lineChecks_of_isKeyChar fun c hc => ?_
    have hdigit : c.isDigit = true := Nat.isDigit_of_mem_toDigits (by decide) (by decide) hc
    simp [isKeyChar, Char.isAlphanum, hdigit]
  | .scalar (.str text) =>
    by_cases htext : (Scalar.str text).IsText
    · rw [Value.raw, Scalar.write, if_pos htext]
      exact lineChecks_of_leading (Python.forall_mem_of_all (by decide)) rfl
    · rw [Value.raw, Scalar.write, if_neg htext]
      exact (Scalar.WellFormed.plainString h htext).checks

/-- The line of a key passes the line checks, also behind a dash. -/
theorem lineChecks_keyLine {key : Str} (hkey : IsKey key) {value : Value}
    (hvalue : value.WellFormed) {lead : Str} (hlead : ∀ c ∈ lead, Leading c) :
    LineChecks (lead ++ keyLine key value) := by
  have hkeyLead : ∀ c ∈ lead ++ key, Leading c := List.forall_mem_append.mpr
    ⟨hlead, fun c hc => leading_of_isKeyChar (hkey.2 c hc)⟩
  by_cases hraw : value.raw = []
  · rw [keyLine, if_pos hraw, ← List.append_assoc]
    have hcolon : LineChecks [':'] :=
      lineChecks_of_leading (Python.forall_mem_of_all (by decide)) rfl
    exact LineChecks.append hkeyLead (List.cons_ne_nil _ _) hcolon
  · have hline : lead ++ keyLine key value = (lead ++ key ++ ": ".toList) ++ value.raw := by
      simp [keyLine, hraw]
    rw [hline]
    have hcolon : ∀ c ∈ ": ".toList, Leading c := Python.forall_mem_of_all (by decide)
    exact hvalue.raw.append (List.forall_mem_append.mpr ⟨hkeyLead, hcolon⟩) hraw

/-- A line that the parser reads back. -/
structure Line.Printable (line : Line) : Prop where
  even : line.indent % 2 = 0
  nonempty : line.content ≠ []
  start : line.content.head? ≠ some ' '
  checks : LineChecks line.content

/-- A printable line that is short enough is read back. -/
theorem Line.Printable.writable {line : Line} (h : line.Printable)
    (hshort : utf8Length (line.text ++ ['\n']) ≤ MAX_LINE_BYTES) : line.Writable :=
  ⟨⟨h.even, h.nonempty, h.start, h.checks.trimmed, h.checks.content⟩, hshort, h.checks.unbroken⟩

/-- A printable line is no dash without a content. -/
theorem Line.Printable.content_ne_dash {line : Line} (h : line.Printable) :
    line.content ≠ "- ".toList := by
  intro hcontent
  have htrimmed := h.checks.trimmed
  rw [hcontent] at htrimmed
  exact absurd htrimmed (by decide)

/-- The line of a key is printable, with or without a dash. -/
theorem printable_keyLine {key : Str} (hkey : IsKey key) {value : Value}
    (hvalue : value.WellFormed) {indent : ℕ} (heven : indent % 2 = 0) :
    (Line.mk indent (keyLine key value)).Printable ∧
      (Line.mk indent ('-' :: ' ' :: keyLine key value)).Printable := by
  constructor
  · refine ⟨heven, by simp [keyLine], ?_, lineChecks_keyLine hkey hvalue (List.forall_mem_nil _)⟩
    obtain ⟨c, rest, rfl⟩ := List.exists_cons_of_ne_nil hkey.1
    intro hc
    have hspace := hkey.2 c List.mem_cons_self
    rw [Option.some.inj hc] at hspace
    exact absurd hspace (by decide)
  · have hdash : ∀ c ∈ "- ".toList, Leading c := Python.forall_mem_of_all (by decide)
    exact ⟨heven, List.cons_ne_nil _ _, show some '-' ≠ some ' ' by decide,
      lineChecks_keyLine hkey hvalue hdash⟩

mutual

/-- The lines of a value are printable. -/
theorem renderValue_printable (value : Value) (hvalue : value.WellFormed) (indent : ℕ)
    (heven : indent % 2 = 0) : ∀ line ∈ renderValue indent value, line.Printable := by
  match value with
  | .map entries => exact renderEntries_printable entries hvalue indent heven
  | .list items => exact renderItems_printable items hvalue.2 indent heven
  | .scalar s =>
    by_cases hs : s.IsText
    · match s with
      | .str text =>
        obtain ⟨lines, hne, rfl, hlines⟩ := Scalar.WellFormed.blockString hvalue hs
        rw [renderValue, if_pos hs, splitLines_blockString hne hlines]
        refine List.forall_mem_map.mpr fun line hline => ?_
        exact ⟨heven, (hlines line hline).1, (hlines line hline).2.1, (hlines line hline).2.2⟩
    · rw [renderValue_of_not_isText hs]
      exact List.forall_mem_nil _

/-- The lines of entries are printable. -/
theorem renderEntries_printable (entries : List (Str × Value))
    (hentries : EntriesWellFormed entries) (indent : ℕ) (heven : indent % 2 = 0) :
    ∀ line ∈ renderEntries indent entries, line.Printable := by
  match entries with
  | [] => simp [renderEntries]
  | (key, value) :: rest =>
    obtain ⟨hkey, -, hvalue, hrest⟩ := hentries
    refine List.forall_mem_cons.mpr ⟨(printable_keyLine hkey hvalue heven).1, ?_⟩
    refine List.forall_mem_append.mpr ⟨?_, renderEntries_printable rest hrest indent heven⟩
    exact renderValue_printable value hvalue (indent + 2) (by omega)

/-- The lines of items are printable. -/
theorem renderItems_printable (items : List Value) (hitems : ItemsWellFormed items) (indent : ℕ)
    (heven : indent % 2 = 0) : ∀ line ∈ renderItems indent items, line.Printable := by
  match items with
  | [] => simp [renderItems]
  | .map ((key, value) :: others) :: rest =>
    obtain ⟨-, ⟨hkey, -, hvalue, hothers⟩, hrest⟩ := hitems
    refine List.forall_mem_cons.mpr ⟨(printable_keyLine hkey hvalue heven).2, ?_⟩
    refine List.forall_mem_append.mpr ⟨?_, List.forall_mem_append.mpr ⟨?_, ?_⟩⟩
    · exact renderValue_printable value hvalue (indent + 4) (by omega)
    · exact renderEntries_printable others hothers (indent + 2) (by omega)
    · exact renderItems_printable rest hrest indent heven

end

/-- Rendering a document within the limits and parsing the text gives back the document. -/
theorem parse_renderText (document : Value) (hdocument : Document document)
    (hcount : (renderValue 0 document).length ≤ MAX_WORKFLOW_LINES)
    (hshort : ∀ line ∈ renderValue 0 document,
      utf8Length (line.text ++ ['\n']) ≤ MAX_LINE_BYTES) :
    ∃ p, Parser.init (renderText document) = .ok p ∧ p.parse = .ok document := by
  match document, hdocument with
  | .map (entry :: rest), ⟨_, hentries⟩ =>
    have hprintable := renderEntries_printable (entry :: rest) hentries 0 rfl
    have hparses := renderEntries_parses (entry :: rest) hentries 0 [] (by simp [Outside])
    have hlines : renderEntries 0 (entry :: rest) ≠ [] := List.cons_ne_nil _ _
    refine ⟨⟨_, hlines⟩, ?_, ?_⟩
    · refine Parser.init_lines hlines hcount fun line hline => ?_
      exact (hprintable line hline).writable (hshort line hline)
    · refine (Parser.parse_eq_ok_iff fun line hline => ?_).mpr (.map ?_ hparses)
      · exact (hprintable line hline).content_ne_dash
      · exact ⟨_, rfl, rfl, isItem_keyLine hentries.1 0 entry.2⟩

/-- A workflow with a list of steps, a block string and an empty dictionary. -/
def smallWorkflow : Value :=
  .map [("on".toList, .map [("push".toList, .map [])]),
    ("steps".toList, .list [
      .map [("with".toList, .map [("java-version".toList, .scalar (.int 17))]),
        ("run".toList, .scalar (.str "make all\nmake check\n".toList))],
      .map [("name".toList, .scalar (.str "Public gate".toList)),
        ("draft".toList, .scalar (.bool false))]])]

/-- The small workflow is in the format. -/
theorem document_smallWorkflow : Document smallWorkflow := by
  have hchecks : ∀ text ∈ ["make all", "make check", "Public gate"].map String.toList,
      text ≠ [] ∧ text.head? ≠ some ' ' ∧ LineChecks text := by
    have hdecide : ∀ text ∈ ["make all", "make check", "Public gate"].map String.toList,
        text ≠ [] ∧ text.head? ≠ some ' ' ∧
          (text.all fun c => decide (Leading c)) = true ∧ rstrip text = text := by
      decide
    intro text htext
    obtain ⟨hne, hhead, hlead, htrimmed⟩ := hdecide text htext
    exact ⟨hne, hhead, lineChecks_of_leading (Python.forall_mem_of_all hlead) htrimmed⟩
  have hname : (Value.scalar (.str "Public gate".toList)).WellFormed :=
    .inl ⟨rfl, by decide, (hchecks _ (by decide)).2.2⟩
  have hrun : (Value.scalar (.str "make all\nmake check\n".toList)).WellFormed :=
    .inr ⟨["make all".toList, "make check".toList], by decide, rfl,
      fun line hline => hchecks line (List.mem_append_left _ hline)⟩
  have hwith : EntriesWellFormed [("java-version".toList, .scalar (.int 17))] :=
    ⟨by decide, by decide, trivial, trivial⟩
  have hsteps : ItemsWellFormed [
      .map [("with".toList, .map [("java-version".toList, .scalar (.int 17))]),
        ("run".toList, .scalar (.str "make all\nmake check\n".toList))],
      .map [("name".toList, .scalar (.str "Public gate".toList)),
        ("draft".toList, .scalar (.bool false))]] :=
    ⟨⟨by decide, by simp, by simp⟩,
      ⟨by decide, by decide, hwith, by decide, by decide, hrun, trivial⟩,
      ⟨by decide, fun s hs => by cases hs; decide, by simp⟩,
      ⟨by decide, by decide, hname, by decide, by decide, trivial, trivial⟩, trivial⟩
  exact ⟨List.cons_ne_nil _ _, by decide, by decide, ⟨by decide, by decide, trivial, trivial⟩,
    by decide, by decide, ⟨List.cons_ne_nil _ _, hsteps⟩, trivial⟩

set_option maxRecDepth 4000 in
/-- The small workflow is written on ten lines and read back. -/
theorem parse_renderText_smallWorkflow :
    renderText smallWorkflow = ("on:\n  push:\nsteps:\n  - with:\n      java-version: 17\n" ++
      "    run: |\n      make all\n      make check\n" ++
      "  - name: Public gate\n    draft: false\n").toList ∧
    ∃ p, Parser.init (renderText smallWorkflow) = .ok p ∧ p.parse = .ok smallWorkflow :=
  ⟨by decide, parse_renderText smallWorkflow document_smallWorkflow (by decide) (by decide)⟩

end RealityCore.Workflow
