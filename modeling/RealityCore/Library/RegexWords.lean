import RealityCore.Library.RegexRuns
import Mathlib.Data.List.Forall2

/-!
# Patterns of fixed width

A pattern spells a list of character classes when it consumes exactly one character of each.
Fixed texts, classes and counted repetitions do, and so do their sequences.
-/

namespace Regex

variable {α : Type*}

/-- Between two positions stands one character of each class. -/
def Consumes (classes : List (α → Bool)) (s e : Cursor α) : Prop :=
  ∃ word, List.Forall₂ (fun allowed c => allowed c = true) classes word ∧
    s.after = word ++ e.after ∧ e.before = word.reverse ++ s.before

/-- A pattern consumes exactly one character of each class. -/
def Pattern.Spells (r : Pattern α) (classes : List (α → Bool)) : Prop :=
  ∀ s e, e ∈ r.reach s ↔ Consumes classes s e

/-- Nothing is consumed for no class. -/
theorem consumes_nil_iff {s e : Cursor α} : Consumes [] s e ↔ e = s := by
  constructor
  · rintro ⟨word, hword, hafter, hbefore⟩
    obtain rfl := List.forall₂_nil_left_iff.mp hword
    exact Cursor.ext hbefore hafter.symm
  · rintro rfl
    exact ⟨[], .nil, rfl, rfl⟩

/-- Classes are consumed one part after the other. -/
theorem consumes_append_iff {first second : List (α → Bool)} {s e : Cursor α} :
    Consumes (first ++ second) s e ↔ ∃ m, Consumes first s m ∧ Consumes second m e := by
  constructor
  · rintro ⟨word, hword, hafter, hbefore⟩
    have hfront := List.forall₂_take_append _ _ _ hword.flip
    have hback := List.forall₂_drop_append _ _ _ hword.flip
    rw [← List.take_append_drop first.length word] at hafter hbefore
    refine ⟨⟨(word.take first.length).reverse ++ s.before, word.drop first.length ++ e.after⟩,
      ⟨_, hfront.flip, ?_, rfl⟩, ⟨_, hback.flip, rfl, ?_⟩⟩
    · rw [hafter, List.append_assoc]
    · rw [hbefore, List.reverse_append, List.append_assoc]
  · rintro ⟨m, ⟨front, hfront, hfrontAfter, hfrontBefore⟩, ⟨back, hback, hafter, hbefore⟩⟩
    refine ⟨front ++ back, List.rel_append hfront hback, ?_, ?_⟩
    · rw [hfrontAfter, hafter, List.append_assoc]
    · rw [hbefore, hfrontBefore, List.reverse_append, List.append_assoc]

/-- A class spells itself. -/
theorem spells_set (allowed : α → Bool) : (Pattern.set allowed).Spells [allowed] := by
  rintro ⟨before, after⟩ e
  constructor
  · intro h
    cases after with
    | nil => simp [Pattern.reach] at h
    | cons c rest =>
      by_cases hc : allowed c = true
      · obtain rfl : e = ⟨c :: before, rest⟩ := by simpa [Pattern.reach, hc] using h
        exact ⟨[c], .cons hc .nil, rfl, rfl⟩
      · simp [Pattern.reach, hc] at h
  · rintro ⟨word, hword, hafter, hbefore⟩
    obtain ⟨c, rest, hc, hrest, rfl⟩ := List.forall₂_cons_left_iff.mp hword
    obtain rfl := List.forall₂_nil_left_iff.mp hrest
    obtain rfl : after = c :: e.after := hafter
    have he : e = ⟨c :: before, e.after⟩ := Cursor.ext hbefore rfl
    rw [he]
    simp [Pattern.reach, hc]

/-- The empty pattern spells no class. -/
theorem spells_empty : (Pattern.empty : Pattern α).Spells [] := by
  intro s e
  rw [consumes_nil_iff, Pattern.empty, Pattern.reach, if_pos rfl, List.mem_singleton]

/-- A sequence spells the classes of its parts. -/
theorem Pattern.Spells.seq {first second : Pattern α} {cs ds : List (α → Bool)}
    (hfirst : first.Spells cs) (hsecond : second.Spells ds) :
    (Pattern.seq first second).Spells (cs ++ ds) := by
  intro s e
  rw [consumes_append_iff, Pattern.reach, List.mem_flatMap]
  exact exists_congr fun m => and_congr (hfirst s m) (hsecond m e)

/-- A fixed text spells its characters. -/
theorem spells_text [BEq α] (word : List α) :
    (Pattern.text word).Spells (word.map fun c => (· == c)) := by
  induction word with
  | nil => exact spells_empty
  | cons c rest ih => exact (spells_set (· == c)).seq ih

/-- A counted repetition spells the classes of its rounds. -/
theorem Pattern.Spells.times {r : Pattern α} {classes : List (α → Bool)} (h : r.Spells classes)
    (n : ℕ) : (r.times n).Spells (List.replicate n classes).flatten := by
  have hexactly : ∀ s e, e ∈ exactly r.reach n s ↔
      Consumes (List.replicate n classes).flatten s e := by
    induction n with
    | zero =>
      intro s e
      rw [List.replicate_zero, List.flatten_nil, consumes_nil_iff, exactly, List.mem_singleton]
    | succ n ih =>
      intro s e
      rw [List.replicate_succ, List.flatten_cons, consumes_append_iff, exactly, List.mem_flatMap]
      exact exists_congr fun m => and_congr (h s m) (ih m e)
  intro s e
  simp only [Pattern.times, Pattern.reach, Option.getD_some, greedy]
  rw [← hexactly]
  simp

/-- The patterns one after the other. -/
def Pattern.concat : List (Pattern α) → Pattern α
  | [] => .empty
  | r :: rest => .seq r (Pattern.concat rest)

/-- A concatenation spells the classes of its patterns. -/
theorem spells_concat {patterns : List (Pattern α)} {classes : List (List (α → Bool))}
    (h : List.Forall₂ Pattern.Spells patterns classes) :
    (Pattern.concat patterns).Spells classes.flatten := by
  induction h with
  | nil => exact spells_empty
  | cons hr _ ih => exact hr.seq ih

/-- A sequence reaches what its second part reaches from where its first part ends. -/
theorem mem_reach_seq {first second : Pattern α} {s e : Cursor α} :
    e ∈ (Pattern.seq first second).reach s ↔ ∃ m, m ∈ first.reach s ∧ e ∈ second.reach m :=
  List.mem_flatMap

/-- An alternation reaches what one of its patterns reaches. -/
theorem mem_reach_choice {patterns : List (Pattern α)} {s e : Cursor α} :
    e ∈ (Pattern.choice patterns).reach s ↔ ∃ r ∈ patterns, e ∈ r.reach s := by
  induction patterns with
  | nil => simp [Pattern.choice, Pattern.reach]
  | cons r rest ih =>
    cases rest with
    | nil => simp [Pattern.choice]
    | cons next rest =>
      have hchoice : Pattern.choice (r :: next :: rest) =
          .alt r (Pattern.choice (next :: rest)) := rfl
      rw [hchoice, Pattern.reach, List.mem_append, ih]
      exact (List.exists_mem_cons_iff (e ∈ Pattern.reach · s) _ _).symm

/-- A fixed text is consumed where it stands. -/
theorem mem_reach_text [BEq α] [LawfulBEq α] {word : List α} {s e : Cursor α} :
    e ∈ (Pattern.text word).reach s ↔
      s.after = word ++ e.after ∧ e.before = word.reverse ++ s.before := by
  rw [spells_text word s e, Consumes]
  constructor
  · rintro ⟨read, hread, hafter, hbefore⟩
    obtain rfl : word = read := by
      rw [List.forall₂_map_left_iff] at hread
      exact List.forall₂_eq_eq_eq ▸ hread.imp fun c d h => (eq_of_beq h).symm
    exact ⟨hafter, hbefore⟩
  · rintro ⟨hafter, hbefore⟩
    refine ⟨word, ?_, hafter, hbefore⟩
    rw [List.forall₂_map_left_iff]
    exact List.forall₂_same.mpr fun c _ => beq_self_eq_true c

/-- An optional pattern consumes nothing or, when it consumes, what its body consumes. -/
theorem mem_reach_optional {r : Pattern α} {s e : Cursor α} :
    e ∈ (Pattern.optional r).reach s ↔
      e = s ∨ (e ∈ r.reach s ∧ e.after.length < s.after.length) := by
  simp only [Pattern.optional, Pattern.reach, exactly, List.flatMap_singleton, Option.getD_some,
    greedy, List.mem_append, List.mem_flatMap, List.mem_filter, decide_eq_true_eq,
    List.mem_singleton]
  constructor
  · rintro (⟨m, hm, rfl⟩ | rfl)
    · exact .inr hm
    · exact .inl rfl
  · rintro (rfl | h)
    · exact .inr rfl
    · exact .inl ⟨e, h, rfl⟩

/-- An assertion consumes nothing. -/
theorem mem_reach_assert {test : Cursor α → Bool} {s e : Cursor α} :
    e ∈ (Pattern.assert test).reach s ↔ test s = true ∧ e = s := by
  by_cases h : test s = true
  · simp [Pattern.reach, h]
  · simp [Pattern.reach, h]

/-! ## Words between boundaries -/

/-- `\b`, a pattern, `\b`. -/
def Pattern.bounded (isWord : α → Bool) (body : Pattern α) : Pattern α :=
  .concat [.wordBoundary isWord, body, .wordBoundary isWord]

/-- A text has a word with no word character next to it. -/
def HasBounded (isWord : α → Bool) (classes : List (α → Bool)) (s : List α) : Prop :=
  ∃ front word rest, s = front ++ (word ++ rest) ∧
    List.Forall₂ (fun allowed c => allowed c = true) classes word ∧
    front.getLast?.any isWord = false ∧ rest.head?.any isWord = false

/-- Classes that start and end with word characters. -/
structure IsWordClasses (isWord : α → Bool) (classes : List (α → Bool)) : Prop where
  first : ∃ allowed, classes.head? = some allowed ∧ ∀ c, allowed c = true → isWord c = true
  last : ∃ allowed, classes.getLast? = some allowed ∧ ∀ c, allowed c = true → isWord c = true

/-- The first and the last character of such a word are word characters. -/
theorem IsWordClasses.word {isWord : α → Bool} {classes : List (α → Bool)}
    (h : IsWordClasses isWord classes) {word : List α}
    (hword : List.Forall₂ (fun allowed c => allowed c = true) classes word) :
    word.head?.any isWord = true ∧ word.getLast?.any isWord = true := by
  obtain ⟨first, hfirst, hfirstWord⟩ := h.first
  obtain ⟨last, hlast, hlastWord⟩ := h.last
  constructor
  · cases hword with
    | nil => simp at hfirst
    | cons hc _ =>
      obtain rfl := Option.some.inj hfirst
      exact hfirstWord _ hc
  · rw [← List.head?_reverse] at hlast ⊢
    have hreverse := List.rel_reverse hword
    generalize classes.reverse = backward, word.reverse = letters at hlast hreverse ⊢
    cases hreverse with
    | nil => simp at hlast
    | cons hc _ =>
      obtain rfl := Option.some.inj hlast
      exact hlastWord _ hc

/-- Where a bounded pattern ends: its body is matched from one boundary to the next. -/
theorem mem_reach_bounded {isWord : α → Bool} {body : Pattern α} {s e : Cursor α} :
    e ∈ (Pattern.bounded isWord body).reach s ↔
      (s.before.head?.any isWord != s.after.head?.any isWord) = true ∧ e ∈ body.reach s ∧
        (e.before.head?.any isWord != e.after.head?.any isWord) = true := by
  simp only [Pattern.bounded, Pattern.concat, Pattern.wordBoundary, Pattern.empty, mem_reach_seq,
    mem_reach_assert]
  constructor
  · rintro ⟨_, ⟨hstart, rfl⟩, _, hn, _, ⟨hstop, rfl⟩, -, rfl⟩
    exact ⟨hstart, hn, hstop⟩
  · rintro ⟨hstart, he, hstop⟩
    exact ⟨s, ⟨hstart, rfl⟩, e, he, e, ⟨hstop, rfl⟩, trivial, rfl⟩

/-- A search between boundaries finds something exactly when the text has a bounded word of one of
the forms that the pattern spells. -/
theorem search_bounded_isSome_iff {isWord : α → Bool} {body : Pattern α}
    {forms : List (List (α → Bool))}
    (hbody : ∀ s e, e ∈ body.reach s ↔ ∃ classes ∈ forms, Consumes classes s e)
    (hforms : ∀ classes ∈ forms, IsWordClasses isWord classes) {s : List α} :
    (search (.bounded isWord body) s).isSome = true ↔
      ∃ classes ∈ forms, HasBounded isWord classes s := by
  rw [search_isSome_iff]
  constructor
  · rintro ⟨start, stop, rfl, hstop⟩
    obtain ⟨hstart, hreach, hend⟩ := mem_reach_bounded.mp hstop
    obtain ⟨classes, hmem, word, hword, hafter, hbefore⟩ := (hbody start stop).mp hreach
    obtain ⟨hfirst, hlast⟩ := (hforms classes hmem).word hword
    have hne : word ≠ [] := fun hnil => by simp [hnil] at hfirst
    rw [hafter, List.head?_append_of_ne_nil _ hne, hfirst] at hstart
    rw [hbefore, List.head?_append_of_ne_nil _ (List.reverse_ne_nil_iff.mpr hne),
      List.head?_reverse, hlast] at hend
    refine ⟨classes, hmem, start.before.reverse, word, stop.after, ?_, hword, ?_, ?_⟩
    · rw [Cursor.subject, hafter]
    · rw [List.getLast?_reverse]
      simpa using hstart
    · simpa using hend
  · rintro ⟨classes, hmem, front, word, rest, rfl, hword, hfront, hrest⟩
    obtain ⟨hfirst, hlast⟩ := (hforms classes hmem).word hword
    have hne : word ≠ [] := fun hnil => by simp [hnil] at hfirst
    refine ⟨⟨front.reverse, word ++ rest⟩, ⟨word.reverse ++ front.reverse, rest⟩, ?_,
      mem_reach_bounded.mpr ⟨?_, (hbody _ _).mpr ⟨classes, hmem, word, hword, rfl, rfl⟩, ?_⟩⟩
    · rw [Cursor.subject, List.reverse_reverse]
    · rw [List.head?_reverse, hfront, List.head?_append_of_ne_nil _ hne, hfirst]
      rfl
    · rw [List.head?_append_of_ne_nil _ (List.reverse_ne_nil_iff.mpr hne), List.head?_reverse,
        hlast, hrest]
      rfl

end Regex
