import Mathlib.Data.List.Basic
import Mathlib.Data.Nat.Notation

/-!
# Backtracking regular expressions

A pattern is matched by backtracking: `reach` lists the positions at which a match from a
given position can end, in the order in which a backtracking engine tries them, so that
the first one is the match it reports. Assertions read the text on both sides of a
position without consuming any. `search` reports the match at the leftmost position that
has one, and `search_eq_some_iff` states this without the scan.

The body of a repetition must consume text in each of its optional rounds.
-/

namespace Regex

variable {α : Type*}

/-- A position in a subject: the text before it, nearest first, and the text after it. -/
@[ext] structure Cursor (α : Type*) where
  before : List α
  after : List α
  deriving DecidableEq

/-- The text in which a cursor is a position. -/
def Cursor.subject (s : Cursor α) : List α := s.before.reverse ++ s.after

/-- Two positions of one subject with the same index are the same position. -/
theorem Cursor.eq_of_subject {s t : Cursor α} (hsubject : s.subject = t.subject)
    (hindex : s.before.length = t.before.length) : s = t := by
  obtain ⟨hbefore, hafter⟩ := List.append_inj hsubject (by simpa using hindex)
  exact Cursor.ext (List.reverse_injective hbefore) hafter

/-- Patterns over an alphabet; character classes and assertions are tests. -/
inductive Pattern (α : Type*) where
  | set (allowed : α → Bool)
  | seq (first second : Pattern α)
  | alt (left right : Pattern α)
  | many (body : Pattern α) (least : ℕ) (more : Option ℕ)
  | assert (test : Cursor α → Bool)

/-- Run a step exactly the given number of times. -/
def exactly (step : Cursor α → List (Cursor α)) : ℕ → Cursor α → List (Cursor α)
  | 0, s => [s]
  | n + 1, s => (step s).flatMap (exactly step n)

/-- Run a consuming step at most the given number of times, trying more rounds first. -/
def greedy (step : Cursor α → List (Cursor α)) : ℕ → Cursor α → List (Cursor α)
  | 0, s => [s]
  | n + 1, s =>
    ((step s).filter fun e => e.after.length < s.after.length).flatMap (greedy step n) ++ [s]

/-- The ends of the matches from a position, in the order of the backtracking engine. -/
def Pattern.reach : Pattern α → Cursor α → List (Cursor α)
  | set allowed, s =>
    match s.after with
    | [] => []
    | c :: rest => if allowed c then [⟨c :: s.before, rest⟩] else []
  | seq first second, s => (first.reach s).flatMap second.reach
  | alt left right, s => left.reach s ++ right.reach s
  | many body least more, s =>
    (exactly body.reach least s).flatMap fun e => greedy body.reach (more.getD e.after.length) e
  | assert test, s => if test s then [s] else []

/-- A match: where it starts and where it ends. -/
structure Match (α : Type*) where
  start : Cursor α
  stop : Cursor α
  deriving DecidableEq

/-- The matched text, `match.group(0)`. -/
def Match.text (m : Match α) : List α :=
  m.start.after.take (m.start.after.length - m.stop.after.length)

/-- The index of the first matched character, `match.start()`. -/
def Match.index (m : Match α) : ℕ := m.start.before.length

/-- The match that the engine reports at one position. -/
def matchAt (r : Pattern α) (s : Cursor α) : Option (Match α) :=
  (r.reach s).head?.map fun e => ⟨s, e⟩

/-- Try the positions from left to right. -/
def searchFrom (r : Pattern α) (before : List α) : List α → Option (Match α)
  | [] => matchAt r ⟨before, []⟩
  | c :: rest => (matchAt r ⟨before, c :: rest⟩).or (searchFrom r (c :: before) rest)

/-- The leftmost match in a subject, `pattern.search`. -/
def search (r : Pattern α) (subject : List α) : Option (Match α) := searchFrom r [] subject

/-- Some match covers the whole subject, `pattern.fullmatch`. -/
def fullMatch (r : Pattern α) (subject : List α) : Bool :=
  (r.reach ⟨[], subject⟩).any fun e => e.after.isEmpty

/-- An occurrence: a position of the subject with the match reported there. -/
def Occurs (r : Pattern α) (subject : List α) (m : Match α) : Prop :=
  m.start.subject = subject ∧ matchAt r m.start = some m

/-- The reported match starts where it was tried. -/
theorem start_of_matchAt {r : Pattern α} {s : Cursor α} {m : Match α} (h : matchAt r s = some m) :
    m.start = s := by
  obtain ⟨e, -, rfl⟩ := Option.map_eq_some_iff.mp h
  rfl

/-- The scan reports a match at the leftmost remaining position that has one. -/
theorem searchFrom_eq_some {r : Pattern α} {before after : List α} {m : Match α}
    (h : searchFrom r before after = some m) :
    Occurs r (before.reverse ++ after) m ∧
      ∀ m', Occurs r (before.reverse ++ after) m' → before.length ≤ m'.index →
        m.index ≤ m'.index := by
  induction after generalizing before with
  | nil =>
    have hstart := start_of_matchAt h
    refine ⟨⟨by rw [hstart]; rfl, by rw [hstart]; exact h⟩, fun m' _ hm' => ?_⟩
    simpa only [Match.index, hstart] using hm'
  | cons c rest ih =>
    rcases Option.or_eq_some_iff.mp h with hhere | ⟨hnone, hlater⟩
    · have hstart := start_of_matchAt hhere
      refine ⟨⟨by rw [hstart]; rfl, by rw [hstart]; exact hhere⟩, fun m' _ hm' => ?_⟩
      simpa only [Match.index, hstart] using hm'
    · obtain ⟨hocc, hleast⟩ := ih hlater
      have hsubject : (c :: before).reverse ++ rest = before.reverse ++ c :: rest := by simp
      rw [hsubject] at hocc hleast
      refine ⟨hocc, fun m' hm' hindex => hleast m' hm' ?_⟩
      by_contra hlt
      have hcursor : m'.start = ⟨before, c :: rest⟩ := by
        refine Cursor.eq_of_subject hm'.1 ?_
        simp only [Match.index, List.length_cons] at hindex hlt ⊢
        omega
      rw [← hcursor, hm'.2] at hnone
      simp at hnone

/-- The scan reports nothing exactly when no remaining position has a match. -/
theorem searchFrom_eq_none {r : Pattern α} {before after : List α}
    (h : searchFrom r before after = none) {m : Match α}
    (hm : Occurs r (before.reverse ++ after) m) : m.index < before.length := by
  induction after generalizing before with
  | nil =>
    by_contra hlt
    have hlen := congrArg List.length hm.1
    have hcursor : m.start = ⟨before, []⟩ := by
      refine Cursor.eq_of_subject hm.1 ?_
      simp only [Cursor.subject, Match.index, List.length_append, List.length_reverse,
        List.length_nil] at hlen hlt ⊢
      omega
    have hat := hm.2
    rw [hcursor] at hat
    rw [searchFrom, hat] at h
    simp at h
  | cons c rest ih =>
    obtain ⟨hhere, hlater⟩ := Option.or_eq_none_iff.mp h
    have hsubject : (c :: before).reverse ++ rest = before.reverse ++ c :: rest := by simp
    have hlt := ih hlater (hsubject ▸ hm)
    by_contra hge
    have hcursor : m.start = ⟨before, c :: rest⟩ := by
      refine Cursor.eq_of_subject hm.1 ?_
      simp only [Match.index, List.length_cons] at hlt hge ⊢
      omega
    rw [← hcursor, hm.2] at hhere
    simp at hhere

/-- `search` reports `m` exactly when `m` is the leftmost occurrence. -/
theorem search_eq_some_iff {r : Pattern α} {subject : List α} {m : Match α} :
    search r subject = some m ↔
      Occurs r subject m ∧ ∀ m', Occurs r subject m' → m.index ≤ m'.index := by
  constructor
  · intro h
    obtain ⟨hocc, hleast⟩ := searchFrom_eq_some h
    exact ⟨hocc, fun m' hm' => hleast m' hm' (Nat.zero_le _)⟩
  · rintro ⟨hocc, hleast⟩
    cases hsearch : search r subject with
    | none => exact absurd (searchFrom_eq_none hsearch hocc) (Nat.not_lt_zero _)
    | some n =>
      obtain ⟨hn, hn'⟩ := searchFrom_eq_some hsearch
      have hindex := Nat.le_antisymm (hn' m hocc (Nat.zero_le _)) (hleast n hn)
      have hcursor := Cursor.eq_of_subject (hn.1.trans hocc.1.symm) hindex
      rw [← hn.2, hcursor, hocc.2]

/-- `search` reports nothing exactly when the pattern does not occur. -/
theorem search_eq_none_iff {r : Pattern α} {subject : List α} :
    search r subject = none ↔ ∀ m, ¬Occurs r subject m := by
  constructor
  · exact fun h m hm => absurd (searchFrom_eq_none h hm) (Nat.not_lt_zero _)
  · intro h
    cases hsearch : search r subject with
    | none => rfl
    | some m => exact absurd (search_eq_some_iff.mp hsearch).1 (h m)

/-! ## Derived patterns and assertions -/

/-- The empty pattern. -/
def Pattern.empty : Pattern α := .assert fun _ => true

/-- A fixed text. -/
def Pattern.text [BEq α] : List α → Pattern α
  | [] => .empty
  | c :: rest => .seq (.set (· == c)) (Pattern.text rest)

/-- An alternation, tried from left to right. -/
def Pattern.choice : List (Pattern α) → Pattern α
  | [] => .assert fun _ => false
  | [r] => r
  | r :: rest => .alt r (Pattern.choice rest)

/-- `r?` -/
def Pattern.optional (r : Pattern α) : Pattern α := .many r 0 (some 1)

/-- `r+` -/
def Pattern.plus (r : Pattern α) : Pattern α := .many r 1 none

/-- `r*` -/
def Pattern.star (r : Pattern α) : Pattern α := .many r 0 none

/-- `r{n}` -/
def Pattern.times (r : Pattern α) (n : ℕ) : Pattern α := .many r n (some 0)

/-- `(?<![..])`: the preceding character, if any, is outside the class. -/
def Pattern.notBehind (banned : α → Bool) : Pattern α :=
  .assert fun s => !s.before.head?.any banned

/-- `(?![..])`: the following character, if any, is outside the class. -/
def Pattern.notAhead (banned : α → Bool) : Pattern α :=
  .assert fun s => !s.after.head?.any banned

/-- `^` without the multi-line flag. -/
def Pattern.atStart : Pattern α := .assert fun s => s.before.isEmpty

/-- `\Z` -/
def Pattern.atEnd : Pattern α := .assert fun s => s.after.isEmpty

/-- `$` without the multi-line flag: the end, or the place before a final newline. -/
def Pattern.dollar [BEq α] (newline : α) : Pattern α :=
  .assert fun s => s.after.isEmpty || s.after == [newline]

/-- `\b`: exactly one of the neighbors is a word character. -/
def Pattern.wordBoundary (isWord : α → Bool) : Pattern α :=
  .assert fun s => s.before.head?.any isWord != s.after.head?.any isWord

end Regex
