import Mathlib.Algebra.GroupWithZero.Nat
import Mathlib.Data.Char
import Mathlib.Data.List.DropRight
import Mathlib.Data.List.Infix
import Mathlib.Data.List.Lex
import Mathlib.Data.List.Sort

/-!
# Python text as lists of code points

A `str` is the list of its code points. The operations follow the documented behavior of
`str.isspace`, `str.rstrip`, `str.strip`, `str.splitlines` and `"\n".join`. The lemmas
relate the ten separators of `splitlines` to splitting at the newline alone, which is
what a reader that knows only one separator sees.
-/

namespace Python

/-- A Python `str`, as its list of code points. -/
abbrev Str := List Char

instance lawfulBEqStr : LawfulBEq Str := inferInstance

/-- The white space of `str.isspace`, `str.strip` and the `\s` class. -/
def isSpace (c : Char) : Bool :=
  let n := c.toNat
  (9 ≤ n && n ≤ 13) || (28 ≤ n && n ≤ 32) || n == 0x85 || n == 0xa0 || n == 0x1680 ||
    (0x2000 ≤ n && n ≤ 0x200a) || n == 0x2028 || n == 0x2029 || n == 0x202f || n == 0x205f ||
    n == 0x3000

/-- The characters at which `str.splitlines` ends a line. -/
def isLineBreak (c : Char) : Bool :=
  let n := c.toNat
  (10 ≤ n && n ≤ 13) || (28 ≤ n && n ≤ 30) || n == 0x85 || n == 0x2028 || n == 0x2029

/-- A property of the characters of a text is checked one by one. -/
theorem forall_mem_of_all {p : Char → Prop} [DecidablePred p] {s : Str}
    (h : (s.all fun c => decide (p c)) = true) : ∀ c ∈ s, p c :=
  fun c hc => of_decide_eq_true (List.all_eq_true.mp h c hc)

/-- Every line separator is white space. -/
theorem isSpace_of_isLineBreak {c : Char} (h : isLineBreak c = true) : isSpace c = true := by
  simp only [isLineBreak, isSpace, Bool.or_eq_true, Bool.and_eq_true, decide_eq_true_eq,
    beq_iff_eq] at h ⊢
  omega

/-- Remove the trailing white space. -/
def rstrip (s : Str) : Str := s.rdropWhile isSpace

/-- Remove the white space on both sides. -/
def strip (s : Str) : Str := rstrip (s.dropWhile isSpace)

/-- `str.splitlines(keepends=True)`: a carriage return with a newline is one separator. -/
def splitLinesKeepEnds : Str → List Str
  | [] => []
  | c :: rest =>
    if isLineBreak c ∧ ¬(c = '\r' ∧ rest.head? = some '\n') then [c] :: splitLinesKeepEnds rest
    else match splitLinesKeepEnds rest with
      | [] => [[c]]
      | line :: lines => (c :: line) :: lines

/-- `str.splitlines()`: the kept lines without the separators at their ends. -/
def splitLines (s : Str) : List Str := (splitLinesKeepEnds s).map (·.rdropWhile isLineBreak)

/-- `raw[:-1] if raw.endswith("\n") else raw`. -/
def dropNewline (raw : Str) : Str := if raw.getLast? = some '\n' then raw.dropLast else raw

/-- `separator.join(parts)`. -/
def join (separator : Str) (parts : List Str) : Str := List.intercalate separator parts

/-- `text.partition(separator)`: the text before the first separator, the separator if it is
found, and the text after it. -/
def partition (text : Str) (separator : Char) : Str × Str × Str :=
  match text.dropWhile (· ≠ separator) with
  | [] => (text, [], [])
  | found :: tail => (text.takeWhile (· ≠ separator), [found], tail)

/-- `text.split(separator, 1)`: the text before the first separator and the text after it, or the
whole text alone. -/
def splitOnce (text : Str) (separator : Char) : List Str :=
  match text.dropWhile (· ≠ separator) with
  | [] => [text]
  | _ :: tail => [text.takeWhile (· ≠ separator), tail]

/-- `sorted(texts)`: ascending code point order. -/
def sorted (texts : List Str) : List Str := texts.insertionSort (· ≤ ·)

/-- The length of the UTF-8 encoding. -/
def utf8Length (s : Str) : ℕ := (s.map Char.utf8Size).sum

/-- A text keeps its end under `rstrip` exactly when it is empty or ends in a printing character. -/
theorem rstrip_eq_self_iff {s : Str} :
    rstrip s = s ↔ ∀ h : s ≠ [], isSpace (s.getLast h) = false := by
  simp [rstrip, List.rdropWhile_eq_self_iff]

/-- Dropping the first character of a text without trailing white space leaves such a text. -/
theorem rstrip_tail {c : Char} {s : Str} (h : rstrip (c :: s) = c :: s) : rstrip s = s := by
  rw [rstrip_eq_self_iff] at h ⊢
  intro hs
  simpa [List.getLast_cons hs] using h (by simp)

/-- Text without trailing white space and without leading spaces is blank only when empty. -/
theorem strip_eq_nil_iff {s : Str} (h : rstrip s = s) : strip s = [] ↔ s = [] := by
  constructor
  · intro hs
    by_contra hne
    have hlast : isSpace (s.getLast hne) = false := rstrip_eq_self_iff.mp h hne
    have hall : ∀ c ∈ s.dropWhile isSpace, isSpace c = true := by
      simpa only [strip, rstrip, List.rdropWhile_eq_nil_iff] using hs
    have hdrop : s.dropWhile isSpace ≠ [] := by
      rw [Ne, List.dropWhile_eq_nil_iff]
      exact fun hw => by simp [hw _ (List.getLast_mem hne)] at hlast
    have hend : (s.dropWhile isSpace).getLast hdrop = s.getLast hne :=
      (List.dropWhile_suffix isSpace).getLast hdrop
    rw [← hend, hall _ (List.getLast_mem hdrop)] at hlast
    exact absurd hlast (by decide)
  · rintro rfl
    rfl

/-- Without the separator the whole text comes first. -/
theorem partition_of_notMem {text : Str} {separator : Char} (h : separator ∉ text) :
    partition text separator = (text, [], []) := by
  have hdrop : text.dropWhile (· ≠ separator) = [] := by
    rw [List.dropWhile_eq_nil_iff]
    intro c hc
    simpa using fun heq : c = separator => h (heq ▸ hc)
  rw [partition, hdrop]

/-- The first separator splits the text. -/
theorem partition_append {head : Str} {separator : Char} (h : separator ∉ head) (tail : Str) :
    partition (head ++ separator :: tail) separator = (head, [separator], tail) := by
  have hne : ∀ c ∈ head, decide (c ≠ separator) = true := by
    intro c hc
    simpa using fun heq : c = separator => h (heq ▸ hc)
  rw [partition, List.dropWhile_append_of_pos hne, List.takeWhile_append_of_pos hne]
  simp

/-- A text with the separator is split into two. -/
theorem splitOnce_append {head : Str} {separator : Char} (h : separator ∉ head) (tail : Str) :
    splitOnce (head ++ separator :: tail) separator = [head, tail] := by
  have hne : ∀ c ∈ head, decide (c ≠ separator) = true := by
    intro c hc
    simpa using fun heq : c = separator => h (heq ▸ hc)
  rw [splitOnce, List.dropWhile_append_of_pos hne, List.takeWhile_append_of_pos hne]
  simp

/-- Sorting a list keeps its elements. -/
@[simp] theorem mem_sorted {texts : List Str} {s : Str} : s ∈ sorted texts ↔ s ∈ texts :=
  List.mem_insertionSort _

/-- Lists are sorted alike exactly when they hold the same texts as often. -/
theorem sorted_eq_sorted_iff {texts other : List Str} :
    sorted texts = sorted other ↔ texts.Perm other := by
  constructor
  · intro h
    exact ((List.perm_insertionSort _ texts).symm.trans (.of_eq h)).trans
      (List.perm_insertionSort _ other)
  · intro h
    refine List.Perm.eq_of_pairwise' (r := (· ≤ ·)) (List.pairwise_insertionSort (· ≤ ·) texts)
      (List.pairwise_insertionSort (· ≤ ·) other) ?_
    exact ((List.perm_insertionSort _ texts).trans h).trans (List.perm_insertionSort _ other).symm

/-- Sorting a list without duplicates gives a strictly ascending list. -/
theorem sorted_pairwise_lt {texts : List Str} (h : texts.Nodup) :
    (sorted texts).Pairwise (· < ·) := by
  have hle : (sorted texts).Pairwise (· ≤ ·) :=
    List.pairwise_insertionSort (· ≤ ·) texts
  have hne : (sorted texts).Pairwise (· ≠ ·) := (List.perm_insertionSort _ texts).symm.nodup h
  exact (hle.and hne).imp fun h => lt_of_le_of_ne h.1 h.2

/-- A separator other than a carriage return ends its line. -/
theorem splitLinesKeepEnds_break {c : Char} (rest : Str) (hc : isLineBreak c = true)
    (hcr : c ≠ '\r') : splitLinesKeepEnds (c :: rest) = [c] :: splitLinesKeepEnds rest := by
  simp [splitLinesKeepEnds, hc, hcr]

/-- Only the empty text has no lines, and no kept line is empty. -/
theorem splitLinesKeepEnds_cons (c : Char) (rest : Str) :
    ∃ line lines, splitLinesKeepEnds (c :: rest) = (c :: line) :: lines := by
  rw [splitLinesKeepEnds]
  split
  · exact ⟨[], _, rfl⟩
  · split
    · exact ⟨[], [], rfl⟩
    · exact ⟨_, _, rfl⟩

/-- A newline-terminated line without separators inside it is split off whole. -/
theorem splitLinesKeepEnds_append_newline (line rest : Str)
    (hline : ∀ c ∈ line, isLineBreak c = false) :
    splitLinesKeepEnds (line ++ '\n' :: rest) = (line ++ ['\n']) :: splitLinesKeepEnds rest := by
  induction line with
  | nil => exact splitLinesKeepEnds_break rest (by decide) (by decide)
  | cons c line ih =>
    have hc : isLineBreak c = false := hline c List.mem_cons_self
    simp [splitLinesKeepEnds, hc, ih fun d hd => hline d (List.mem_cons_of_mem c hd)]

@[simp] theorem dropNewline_append_newline (line : Str) : dropNewline (line ++ ['\n']) = line := by
  simp [dropNewline]

/-- The newline test reads the end of a line, so a character in front is kept. -/
theorem dropNewline_cons (c d : Char) (line : Str) :
    dropNewline (c :: d :: line) = c :: dropNewline (d :: line) := by
  simp only [dropNewline, List.getLast?_cons_cons]
  split <;> rfl

/-- Lines that pass the trailing white-space test hold no separator but their newline. -/
theorem newline_of_isLineBreak {text : Str} (hcr : '\r' ∉ text)
    (hclean : ∀ raw ∈ splitLinesKeepEnds text, rstrip (dropNewline raw) = dropNewline raw) :
    ∀ c ∈ text, isLineBreak c = true → c = '\n' := by
  induction text with
  | nil => simp
  | cons d rest ih =>
    have hrest : '\r' ∉ rest := fun h => hcr (List.mem_cons_of_mem d h)
    have hd : d ≠ '\r' := fun h => hcr (h ▸ List.mem_cons_self)
    cases hbreak : isLineBreak d with
    | true =>
      rw [splitLinesKeepEnds_break rest hbreak hd] at hclean
      have hdn : d = '\n' := by
        by_contra hne
        have := hclean [d] List.mem_cons_self
        simp [dropNewline, hne, rstrip, List.rdropWhile_singleton,
          isSpace_of_isLineBreak hbreak] at this
      intro c hc hcb
      rcases List.mem_cons.mp hc with rfl | hc
      · exact hdn
      · exact ih hrest (fun raw hraw => hclean raw (List.mem_cons_of_mem _ hraw)) c hc hcb
    | false =>
      have htail : ∀ raw ∈ splitLinesKeepEnds rest, rstrip (dropNewline raw) = dropNewline raw := by
        cases rest with
        | nil => simp [splitLinesKeepEnds]
        | cons e rest =>
          obtain ⟨line, lines, hsplit⟩ := splitLinesKeepEnds_cons e rest
          rw [splitLinesKeepEnds, hsplit] at hclean
          simp only [hbreak, Bool.false_eq_true, false_and, if_false, List.forall_mem_cons,
            dropNewline_cons] at hclean
          rw [hsplit, List.forall_mem_cons]
          exact ⟨rstrip_tail hclean.1, hclean.2⟩
      intro c hc hcb
      rcases List.mem_cons.mp hc with rfl | hc
      · simp [hbreak] at hcb
      · exact ih hrest htail c hc hcb

/-- When the newline is the only separator, `splitlines` and splitting at newlines differ by
at most one empty last line. -/
theorem splitOn_newline_eq {text : Str} (h : ∀ c ∈ text, isLineBreak c = true → c = '\n') :
    ∃ tail : List Str, (∀ line ∈ tail, line = []) ∧
      text.splitOn '\n' = (splitLinesKeepEnds text).map dropNewline ++ tail := by
  induction text with
  | nil => exact ⟨[[]], by simp [splitLinesKeepEnds]⟩
  | cons d rest ih =>
    obtain ⟨tail, htail, hsplit⟩ := ih fun c hc => h c (List.mem_cons_of_mem d hc)
    rw [List.splitOn_cons_eq_if_modifyHead]
    by_cases hd : d = '\n'
    · subst hd
      refine ⟨tail, htail, ?_⟩
      rw [splitLinesKeepEnds_break rest (by decide) (by decide)]
      simp [hsplit, dropNewline]
    · have hbreak : isLineBreak d = false := by
        by_contra hne
        exact hd (h d List.mem_cons_self (by simpa using hne))
      cases rest with
      | nil => exact ⟨[], by simp [splitLinesKeepEnds, hbreak, hd, dropNewline]⟩
      | cons e rest =>
        obtain ⟨line, lines, hkeep⟩ := splitLinesKeepEnds_cons e rest
        refine ⟨tail, htail, ?_⟩
        rw [splitLinesKeepEnds, hkeep, hsplit, hkeep]
        simp [hbreak, hd, dropNewline_cons]

/-- The pieces of a text have no separator, and each with its separator they are the text. -/
theorem splitOn_spec {α : Type*} [DecidableEq α] (separator : α) (text : List α) :
    (∀ part ∈ text.splitOn separator, separator ∉ part) ∧
      (text.splitOn separator).flatMap (· ++ [separator]) = text ++ [separator] := by
  induction text with
  | nil => simp
  | cons c text ih =>
    obtain ⟨first, others, hsplit⟩ :=
      List.exists_cons_of_ne_nil (List.splitOn_ne_nil separator text)
    rw [hsplit] at ih
    rw [List.splitOn_cons_eq_if_modifyHead, hsplit]
    by_cases hc : c = separator
    · simpa [hc] using ih
    · have hne : separator ≠ c := Ne.symm hc
      simpa [hc, hne] using ih

/-- A block that starts with a separator stands behind what has no separator. -/
theorem infix_append_of_notMem {α : Type*} {separator : α} {block front text : List α}
    (h : separator ∉ front) :
    separator :: block <:+: front ++ text ↔ separator :: block <:+: text := by
  induction front with
  | nil => rfl
  | cons c front ih =>
    obtain ⟨hc, hfront⟩ := List.ne_and_not_mem_of_not_mem_cons h
    rw [List.cons_append, List.infix_cons_iff, List.cons_prefix_cons, ih hfront]
    exact or_iff_right fun hprefix => hc hprefix.1

/-- Up to their first separators, texts that start alike are the same. -/
theorem prefix_append_iff_of_notMem {α : Type*} {separator : α} {block front text : List α}
    (hblock : separator ∉ block) (hfront : separator ∉ front) :
    block ++ [separator] <+: front ++ separator :: text ↔ block = front := by
  induction block generalizing front with
  | nil => cases front <;> simp_all
  | cons c block ih =>
    cases front with
    | nil => exact iff_of_false (fun h => by simp_all) (by simp)
    | cons d front => simp_all

/-- A part is among others exactly when it stands between separators where each has one. -/
theorem mem_iff_infix_flatMap {α : Type*} {separator : α} {part : List α}
    {parts : List (List α)} (hne : parts ≠ []) (hpart : separator ∉ part)
    (hparts : ∀ other ∈ parts, separator ∉ other) :
    part ∈ parts ↔
      separator :: (part ++ [separator]) <:+: separator :: parts.flatMap (· ++ [separator]) := by
  induction parts with
  | nil => exact absurd rfl hne
  | cons next parts ih =>
    obtain ⟨hnext, hparts⟩ := List.forall_mem_cons.mp hparts
    rw [List.flatMap_cons, List.append_assoc, List.singleton_append, List.infix_cons_iff,
      List.cons_prefix_cons, prefix_append_iff_of_notMem hpart hnext, infix_append_of_notMem hnext,
      eq_self, true_and, List.mem_cons]
    cases parts with
    | nil =>
      have hshort : ¬separator :: (part ++ [separator]) <:+: [separator] := fun h => by
        simpa using h.length_le
      simp [hshort]
    | cons other parts => rw [ih (List.cons_ne_nil other parts) hparts]

/-- The pieces of a text are what stands between separators when it is put between two more. -/
theorem mem_splitOn_iff {α : Type*} [DecidableEq α] {separator : α} {part text : List α}
    (h : separator ∉ part) : part ∈ text.splitOn separator ↔
      separator :: (part ++ [separator]) <:+: separator :: (text ++ [separator]) := by
  obtain ⟨hpieces, htext⟩ := splitOn_spec separator text
  rw [mem_iff_infix_flatMap (List.splitOn_ne_nil separator text) h hpieces, htext]

/-- A piece between newlines holds characters of the text and no newline. -/
theorem of_mem_splitOn_newline {text line : Str} (h : line ∈ text.splitOn '\n') :
    ∀ c ∈ line, c ∈ text ∧ c ≠ '\n' := by
  induction text generalizing line with
  | nil =>
    obtain rfl : line = [] := by simpa using h
    simp
  | cons d rest ih =>
    have htail : ∀ piece ∈ rest.splitOn '\n', ∀ c ∈ piece, c ∈ d :: rest ∧ c ≠ '\n' :=
      fun piece hpiece c hc => ⟨List.mem_cons_of_mem d (ih hpiece c hc).1, (ih hpiece c hc).2⟩
    rw [List.splitOn_cons_eq_if_modifyHead] at h
    by_cases hd : d = '\n'
    · rw [if_pos (by simpa using hd), List.mem_cons] at h
      rcases h with rfl | h
      · simp
      · exact htail line h
    · rw [if_neg (by simpa using hd)] at h
      obtain ⟨first, others, hsplit⟩ := List.exists_cons_of_ne_nil (List.splitOn_ne_nil '\n' rest)
      rw [hsplit, List.modifyHead_cons, List.mem_cons] at h
      rw [hsplit, List.forall_mem_cons] at htail
      rcases h with rfl | h
      · exact List.forall_mem_cons.mpr ⟨⟨List.mem_cons_self, hd⟩, htail.1⟩
      · exact htail.2 line h

/-- Lines, each ended by a newline. -/
def unlines (lines : List Str) : Str := lines.flatMap (· ++ ['\n'])

/-- The first line stands in front of its newline and the others. -/
theorem unlines_cons (line : Str) (lines : List Str) :
    unlines (line :: lines) = line ++ '\n' :: unlines lines := by
  simp [unlines]

/-- Joined at newlines and ended by one, lines stand as they are written one by one. -/
theorem join_newline_append {lines : List Str} (h : lines ≠ []) :
    join ['\n'] lines ++ ['\n'] = unlines lines := by
  induction lines with
  | nil => exact absurd rfl h
  | cons line rest ih =>
    cases rest with
    | nil => simp [join, unlines]
    | cons next rest =>
      have htail := ih (List.cons_ne_nil next rest)
      rw [join] at htail
      rw [join, List.intercalate_cons_cons, unlines_cons, List.append_assoc, List.append_assoc,
        htail, List.singleton_append]

/-- Lines without separators inside are split off as they were written. -/
theorem splitLinesKeepEnds_unlines {lines : List Str}
    (h : ∀ line ∈ lines, ∀ c ∈ line, isLineBreak c = false) :
    splitLinesKeepEnds (unlines lines) = lines.map (· ++ ['\n']) := by
  induction lines with
  | nil => rfl
  | cons line lines ih =>
    obtain ⟨hline, hlines⟩ := List.forall_mem_cons.mp h
    rw [unlines_cons, splitLinesKeepEnds_append_newline line _ hline, ih hlines, List.map_cons]

/-- Lines without separators inside are read back without their newlines. -/
theorem splitLines_unlines {lines : List Str}
    (h : ∀ line ∈ lines, ∀ c ∈ line, isLineBreak c = false) :
    splitLines (unlines lines) = lines := by
  rw [splitLines, splitLinesKeepEnds_unlines h, List.map_map]
  conv_rhs => rw [← List.map_id lines]
  apply List.map_congr_left
  intro line hline
  rw [Function.comp_apply, id, List.rdropWhile_concat_pos _ _ _ (by decide),
    List.rdropWhile_eq_self_iff]
  exact fun hne => by simp [h line hline _ (List.getLast_mem hne)]

/-- The non-blank lines of a text, split at newlines. -/
def nonBlankLines (text : Str) : List Str := (text.splitOn '\n').filter (fun line => line ≠ [])

/-- The first line, when it is not empty, is the first non-blank line. -/
theorem nonBlankLines_append_newline {line : Str} (hne : line ≠ []) (hline : '\n' ∉ line)
    (rest : Str) : nonBlankLines (line ++ '\n' :: rest) = line :: nonBlankLines rest := by
  rw [nonBlankLines, List.splitOn_append_cons_self_of_not_mem hline,
    List.filter_cons_of_pos (by simpa using hne), nonBlankLines]

/-- The non-blank lines of written lines are those that are not empty. -/
theorem nonBlankLines_unlines {texts : List Str} (h : ∀ text ∈ texts, '\n' ∉ text) :
    nonBlankLines (unlines texts) = texts.filter (· ≠ []) := by
  induction texts with
  | nil => rfl
  | cons text texts ih =>
    obtain ⟨htext, htexts⟩ := List.forall_mem_cons.mp h
    rw [unlines_cons]
    by_cases hempty : text = []
    · subst hempty
      rw [List.filter_cons_of_neg (by simp), ← ih htexts, nonBlankLines, List.nil_append,
        ← List.nil_append ('\n' :: _), List.splitOn_append_cons_self_of_not_mem htext,
        List.filter_cons_of_neg (by simp), nonBlankLines]
    · rw [nonBlankLines_append_newline hempty htext, ih htexts,
        List.filter_cons_of_pos (by simpa using hempty)]

/-- The non-blank lines are the non-empty kept lines when newlines are the only separators. -/
theorem nonBlankLines_eq {text : Str} (h : ∀ c ∈ text, isLineBreak c = true → c = '\n') :
    nonBlankLines text =
      ((splitLinesKeepEnds text).map dropNewline).filter (fun line => line ≠ []) := by
  obtain ⟨tail, htail, hsplit⟩ := splitOn_newline_eq h
  have hnil : tail.filter (fun line => line ≠ []) = [] := by
    rw [List.filter_eq_nil_iff]
    exact fun line hline => by simp [htail line hline]
  rw [nonBlankLines, hsplit, List.filter_append, hnil, List.append_nil]

end Python
