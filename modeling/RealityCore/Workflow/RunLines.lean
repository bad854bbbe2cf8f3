import RealityCore.Library.RegexRuns
import RealityCore.Library.RegexWords
import RealityCore.Workflow.Reviewed

/-!
# Run lines without a wrapper

A wrapper's name that only continues a word is not found by the pattern, so a line passes when a
letter stands in front of each such name.
-/

namespace RealityCore.Workflow

open Python (Str isSpace splitLines)
open Regex (Pattern Cursor search)

/-- The names of the shell wrappers. -/
def wrapperNames : List Str :=
  ["env", "alias", "function", "eval", "xargs", "bash", "sh"].map String.toList

/-- Where a name stands in the rest of a line, a letter stands in front. -/
def namesInside (names : List Str) : Option Char → Str → Bool
  | _, [] => true
  | last, c :: rest =>
    (names.all (fun name => !name.isPrefixOf (c :: rest)) || last.any Char.isAlpha) &&
      namesInside names (some c) rest

/-- In front of a name in the line stands a letter. -/
theorem isAlpha_of_namesInside {names : List Str} {name : Str} (hname : name ∈ names)
    (hne : name ≠ []) {front back : Str} {last : Option Char}
    (h : namesInside names last (front ++ (name ++ back)) = true) :
    (front.getLast?.or last).any Char.isAlpha = true := by
  induction front generalizing last with
  | nil =>
    obtain ⟨d, rest, rfl⟩ := List.exists_cons_of_ne_nil hne
    rw [List.nil_append, List.cons_append, namesInside, Bool.and_eq_true, Bool.or_eq_true] at h
    refine h.1.resolve_left fun hnone => ?_
    have hstands : (d :: rest).isPrefixOf (d :: (rest ++ back)) = true := by
      rw [List.isPrefixOf_iff_prefix]
      exact List.prefix_append (d :: rest) back
    simpa [hstands] using List.all_eq_true.mp hnone _ hname
  | cons d front ih =>
    rw [List.cons_append, namesInside, Bool.and_eq_true] at h
    have hlast := ih h.2
    rw [List.getLast?_cons]
    cases hfront : front.getLast? with
    | none => simpa [hfront] using hlast
    | some c => simpa [hfront] using hlast

/-- Each wrapper's name starts with a letter. -/
theorem exists_isAlpha_of_mem_wrapperNames {name : Str} (h : name ∈ wrapperNames) :
    ∃ c rest, name = c :: rest ∧ c.isAlpha = true := by
  have hletters : ∀ name ∈ wrapperNames, name.head?.any Char.isAlpha = true := by decide
  have hhead := hletters _ h
  cases name with
  | nil => exact absurd hhead Bool.false_ne_true
  | cons c rest => exact ⟨c, rest, rfl, hhead⟩

/-- A letter is a word character. -/
theorem isWord_of_isAlpha {isAlnum : Char → Bool} {c : Char} (h : c.isAlpha = true) :
    SourceScan.isWord isAlnum c = true := by
  simp [SourceScan.isWord, SourceScan.isAsciiWord, Char.isAlphanum, h]

/-- No wrapper is found where each name stands behind a letter. -/
theorem search_WRAPPER_RE_eq_none {isAlnum : Char → Bool} {line : Str}
    (h : namesInside wrapperNames none line = true) : search (WRAPPER_RE isAlnum) line = none := by
  rw [← Option.not_isSome_iff_eq_none, Regex.search_isSome_iff]
  rintro ⟨start, stop, rfl, hstop⟩
  obtain ⟨lead, hlead, hrest⟩ := List.mem_flatMap.mp hstop
  obtain ⟨hboundary, hstart⟩ := Regex.mem_reach_assert.mp hlead
  obtain ⟨next, hnext, -⟩ := List.mem_flatMap.mp hrest
  obtain ⟨r, hr, hread⟩ := Regex.mem_reach_choice.mp hnext
  obtain ⟨word, hword, rfl⟩ := List.mem_map.mp hr
  have hafter := (Regex.mem_reach_text.mp hread).1
  rw [hstart] at hafter
  have hname : word.toList ∈ wrapperNames := List.mem_map_of_mem hword
  obtain ⟨d, rest, hcons, hd⟩ := exists_isAlpha_of_mem_wrapperNames hname
  -- Both sides of the name's start are word characters, so no boundary is there.
  rw [Cursor.subject, hafter] at h
  have hfront := isAlpha_of_namesInside hname (hcons ▸ List.cons_ne_nil _ _) h
  rw [List.getLast?_reverse, Option.or_none] at hfront
  obtain ⟨c, hc, halpha⟩ := (Option.any_eq_true _ _).mp hfront
  rw [hafter, hcons, List.cons_append, List.head?_cons, hc, Option.any_some, Option.any_some,
    isWord_of_isAlpha halpha, isWord_of_isAlpha hd] at hboundary
  exact absurd hboundary (by decide)

/-- A line without unsafe fragments in which wrapper names only continue words. -/
def plainRunLine (fragments names : List Str) (line : Str) : Bool :=
  !line.isEmpty && (line.dropWhile isSpace).head? != some '#' &&
    (fragments.all fun fragment => !decide (fragment <:+: line)) &&
    namesInside names none line && line.getLast? != some '\\'

/-- A plain line is not refused. -/
theorem isUnsafeLine_of_plainRunLine {isAlnum : Char → Bool} {line : Str}
    (h : plainRunLine (unsafeFragments.map String.toList) wrapperNames line = true) :
    isUnsafeLine isAlnum line = false ∧ (line.getLast? == some '\\') = false := by
  simp only [plainRunLine, Bool.and_eq_true, Bool.not_eq_true', List.all_map, List.all_eq_true,
    Function.comp_apply, bne_iff_ne, ne_eq] at h
  obtain ⟨⟨⟨⟨hempty, hcomment⟩, hfragments⟩, hnames⟩, hlast⟩ := h
  have hfragment : unsafeFragments.any (fun fragment => decide (fragment.toList <:+: line)) =
      false := List.any_eq_false.mpr fun fragment hmem => by simpa using hfragments fragment hmem
  rw [isUnsafeLine, hempty, hfragment, search_WRAPPER_RE_eq_none hnames]
  simp [hcomment, hlast]

/-- The strings with run lines have some, and they are plain. -/
def plainRuns (fragments names : List Str) (workflow : Value) : Bool :=
  (runValues workflow).all fun run => !(splitLines run).isEmpty &&
    (splitLines run).all (plainRunLine fragments names)

/-- A tree whose run lines are plain passes. -/
theorem verifyRunLines_eq_ok {isAlnum : Char → Bool} {workflow : Value}
    (h : plainRuns (unsafeFragments.map String.toList) wrapperNames workflow = true) :
    verifyRunLines isAlnum workflow = .ok () := by
  unfold verifyRunLines
  unfold plainRuns at h
  generalize runValues workflow = runs at h
  induction runs with
  | nil => rfl
  | cons run runs ih =>
    rw [List.all_cons, Bool.and_eq_true, Bool.and_eq_true] at h
    obtain ⟨⟨hempty, hlines⟩, hruns⟩ := h
    have hne : splitLines run ≠ [] := by simpa using hempty
    have hplain : ∀ line ∈ splitLines run, isUnsafeLine isAlnum line = false ∧
        (line.getLast? == some '\\') = false := fun line hline =>
      isUnsafeLine_of_plainRunLine (List.all_eq_true.mp hlines line hline)
    have hsafe : (splitLines run).any (isUnsafeLine isAlnum) = false :=
      List.any_eq_false.mpr fun line hline => by simp [(hplain line hline).1]
    have hjoined : ((splitLines run).any fun line => line.getLast? == some '\\') = false :=
      List.any_eq_false.mpr fun line hline => by simp [(hplain line hline).2]
    refine Outcome.bind_eq_ok_iff.mpr ⟨(), ?_, ih hruns⟩
    simp only [hne, hsafe, hjoined, Bool.false_eq_true, or_self, if_false]

end RealityCore.Workflow
