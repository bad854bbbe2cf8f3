import Mathlib.Computability.Language
import RealityCore.Library.RegexWords

/-!
# The language of a pattern

A pattern spans a language when it consumes exactly the words of the language. Fixed texts, classes
and their repetitions do, and sequences span products, so a full match is membership.
-/

namespace Regex

variable {α : Type*}

/-- Between two positions stands a word of the language. -/
def Pattern.Spans (r : Pattern α) (language : Language α) : Prop :=
  ∀ s e, e ∈ r.reach s ↔
    ∃ word ∈ language, s.after = word ++ e.after ∧ e.before = word.reverse ++ s.before

/-- The words over a class. -/
def wordsOver (allowed : α → Bool) : Language α := {word | ∀ c ∈ word, allowed c = true}

/-- The words of one character of a class. -/
def letters (allowed : α → Bool) : Language α := {word | ∃ c, word = [c] ∧ allowed c = true}

/-- A class spans its characters. -/
theorem spans_set (allowed : α → Bool) : (Pattern.set allowed).Spans (letters allowed) := by
  intro s e
  rw [mem_reach_set]
  constructor
  · rintro ⟨c, rest, hafter, hc, rfl⟩
    exact ⟨[c], ⟨c, rfl, hc⟩, hafter, rfl⟩
  · rintro ⟨_, ⟨c, rfl, hc⟩, hafter, hbefore⟩
    exact ⟨c, e.after, hafter, hc, Cursor.ext hbefore rfl⟩

/-- The empty pattern spans the empty word. -/
theorem spans_empty : (Pattern.empty : Pattern α).Spans 1 := by
  intro s e
  rw [spells_empty, consumes_nil_iff]
  constructor
  · rintro rfl
    exact ⟨[], Language.nil_mem_one, rfl, rfl⟩
  · rintro ⟨word, hword, hafter, hbefore⟩
    rw [(Language.mem_one word).mp hword] at hafter hbefore
    exact Cursor.ext hbefore hafter.symm

/-- A sequence spans the product of the languages of its parts. -/
theorem Pattern.Spans.seq {first second : Pattern α} {L M : Language α} (hfirst : first.Spans L)
    (hsecond : second.Spans M) : (Pattern.seq first second).Spans (L * M) := by
  intro s e
  rw [mem_reach_seq]
  constructor
  · rintro ⟨m, hm, he⟩
    obtain ⟨front, hfront, hfrontAfter, hfrontBefore⟩ := (hfirst s m).mp hm
    obtain ⟨back, hback, hafter, hbefore⟩ := (hsecond m e).mp he
    refine ⟨front ++ back, Language.append_mem_mul hfront hback, ?_, ?_⟩
    · rw [hfrontAfter, hafter, List.append_assoc]
    · rw [hbefore, hfrontBefore, List.reverse_append, List.append_assoc]
  · rintro ⟨_, hword, hafter, hbefore⟩
    obtain ⟨front, hfront, back, hback, rfl⟩ := Language.mem_mul.mp hword
    rw [List.append_assoc] at hafter
    rw [List.reverse_append, List.append_assoc] at hbefore
    refine ⟨⟨front.reverse ++ s.before, back ++ e.after⟩, ?_, ?_⟩
    · exact (hfirst s _).mpr ⟨front, hfront, hafter, rfl⟩
    · exact (hsecond _ e).mpr ⟨back, hback, rfl, hbefore⟩

/-- A fixed text spans itself. -/
theorem spans_text [BEq α] [LawfulBEq α] (word : List α) : (Pattern.text word).Spans {word} := by
  intro s e
  rw [mem_reach_text]
  exact ⟨fun h => ⟨word, rfl, h⟩, fun ⟨_, hword, h⟩ => hword ▸ h⟩

/-- A concatenation spans the product of the languages of its patterns. -/
theorem spans_concat {patterns : List (Pattern α)} {languages : List (Language α)}
    (h : List.Forall₂ Pattern.Spans patterns languages) :
    (Pattern.concat patterns).Spans languages.prod := by
  induction h with
  | nil => exact spans_empty
  | cons hr _ ih =>
    rw [List.prod_cons]
    exact hr.seq ih

/-- A counted repetition spans a power. -/
theorem Pattern.Spans.times {r : Pattern α} {L : Language α} (h : r.Spans L) (n : ℕ) :
    (r.times n).Spans (L ^ n) := by
  have hexactly : ∀ n s e,
      e ∈ exactly r.reach n s ↔ e ∈ (Pattern.concat (.replicate n r)).reach s := by
    intro n
    induction n with
    | zero =>
      intro s e
      rw [exactly, List.replicate_zero, Pattern.concat, Pattern.empty, mem_reach_assert]
      simp
    | succ n ih =>
      intro s e
      rw [exactly, List.replicate_succ, Pattern.concat, mem_reach_seq, List.mem_flatMap]
      exact exists_congr fun m => and_congr_right fun _ => ih m e
  have hconcat : ∀ n, (Pattern.concat (.replicate n r)).Spans (L ^ n) := by
    intro n
    induction n with
    | zero => exact spans_empty
    | succ n ih =>
      rw [List.replicate_succ, pow_succ']
      exact h.seq ih
  intro s e
  rw [← hconcat n s e, ← hexactly]
  simp [Pattern.times, Pattern.reach, greedy]

/-- A repeated class can be consumed up to any end of a run of the class. -/
theorem mem_greedy_set_iff {allowed : α → Bool} {n : ℕ} {s e : Cursor α} :
    e ∈ greedy (Pattern.set allowed).reach n s ↔ ∃ run ∈ wordsOver allowed, run.length ≤ n ∧
      s.after = run ++ e.after ∧ e.before = run.reverse ++ s.before := by
  induction n generalizing s with
  | zero =>
    rw [greedy, List.mem_singleton]
    constructor
    · rintro rfl
      exact ⟨[], List.forall_mem_nil _, Nat.le_refl 0, rfl, rfl⟩
    · rintro ⟨run, -, hlength, hafter, hbefore⟩
      obtain rfl := List.eq_nil_of_length_eq_zero (Nat.le_zero.mp hlength)
      exact Cursor.ext hbefore hafter.symm
  | succ n ih =>
    rw [greedy, List.mem_append, List.mem_flatMap, List.mem_singleton]
    constructor
    · rintro (⟨next, hnext, he⟩ | rfl)
      · obtain ⟨c, rest, hafter, hc, rfl⟩ := mem_reach_set.mp (List.mem_filter.mp hnext).1
        obtain ⟨run, hrun, hlength, hrest, hbefore⟩ := ih.mp he
        refine ⟨c :: run, List.forall_mem_cons.mpr ⟨hc, hrun⟩, Nat.succ_le_succ hlength, ?_, ?_⟩
        · rw [hafter, List.cons_append, ← hrest]
        · rw [hbefore, List.reverse_cons, List.append_assoc]
          rfl
      · exact ⟨[], List.forall_mem_nil _, Nat.zero_le _, rfl, rfl⟩
    · rintro ⟨run, hrun, hlength, hafter, hbefore⟩
      cases run with
      | nil => exact .inr (Cursor.ext hbefore hafter.symm)
      | cons c run =>
        obtain ⟨hc, hrun⟩ := List.forall_mem_cons.mp hrun
        refine .inl ⟨⟨c :: s.before, run ++ e.after⟩, List.mem_filter.mpr ⟨?_, ?_⟩, ?_⟩
        · exact mem_reach_set.mpr ⟨c, _, hafter, hc, rfl⟩
        · simp [hafter]
        · refine ih.mpr ⟨run, hrun, Nat.le_of_succ_le_succ hlength, rfl, ?_⟩
          rw [hbefore, List.reverse_cons, List.append_assoc]
          rfl

/-- `[..]*` spans the words over the class. -/
theorem spans_star_set (allowed : α → Bool) :
    (Pattern.star (.set allowed)).Spans (wordsOver allowed) := by
  intro s e
  have hreach : (Pattern.star (.set allowed)).reach s =
      greedy (Pattern.set allowed).reach s.after.length s := List.append_nil _
  rw [hreach, mem_greedy_set_iff]
  refine exists_congr fun run => and_congr_right fun _ => and_iff_right_of_imp fun h => ?_
  rw [h.1, List.length_append]
  exact Nat.le_add_right _ _

/-- `[..]+` is one character of the class and then any number of them. -/
theorem spans_plus_set (allowed : α → Bool) :
    (Pattern.plus (.set allowed)).Spans (letters allowed * wordsOver allowed) := by
  intro s e
  rw [← (spans_set allowed).seq (spans_star_set allowed) s e, mem_reach_plus_set, mem_reach_seq]
  simp only [mem_reach_set]
  constructor
  · rintro ⟨c, rest, hafter, hc, he⟩
    exact ⟨_, ⟨c, rest, hafter, hc, rfl⟩, List.mem_append_left _ he⟩
  · rintro ⟨_, ⟨c, rest, hafter, hc, rfl⟩, he⟩
    exact ⟨c, rest, hafter, hc, by simpa [Pattern.star, Pattern.reach, exactly] using he⟩

/-- A full match is membership in the language. -/
theorem Pattern.Spans.fullMatch_iff {r : Pattern α} {L : Language α} (h : r.Spans L)
    {s : List α} : fullMatch r s = true ↔ s ∈ L := by
  rw [fullMatch, List.any_eq_true]
  constructor
  · rintro ⟨e, he, hempty⟩
    obtain ⟨word, hword, hafter, -⟩ := (h _ e).mp he
    have hs : s = word := by simpa [List.isEmpty_iff.mp hempty] using hafter
    rwa [hs]
  · intro hs
    exact ⟨⟨s.reverse, []⟩, (h _ _).mpr ⟨s, hs, by simp, by simp⟩, rfl⟩

/-- The words of as many characters of a class. -/
theorem mem_letters_pow {allowed : α → Bool} {n : ℕ} {word : List α} :
    word ∈ letters allowed ^ n ↔ word.length = n ∧ ∀ c ∈ word, allowed c = true := by
  induction n generalizing word with
  | zero =>
    rw [pow_zero, Language.mem_one, List.length_eq_zero_iff]
    exact ⟨fun h => ⟨h, h ▸ nofun⟩, fun h => h.1⟩
  | succ n ih =>
    rw [pow_succ', Language.mem_mul]
    constructor
    · rintro ⟨_, ⟨c, rfl, hc⟩, rest, hrest, rfl⟩
      obtain ⟨hlength, hallowed⟩ := ih.mp hrest
      exact ⟨congrArg Nat.succ hlength, List.forall_mem_cons.mpr ⟨hc, hallowed⟩⟩
    · rintro ⟨hlength, hallowed⟩
      obtain ⟨c, rest, rfl⟩ := List.exists_cons_of_length_eq_add_one hlength
      obtain ⟨hc, hrest⟩ := List.forall_mem_cons.mp hallowed
      exact ⟨[c], ⟨c, rfl, hc⟩, rest, ih.mpr ⟨Nat.succ.inj hlength, hrest⟩, rfl⟩

/-- A counted class matches the texts of so many of its characters. -/
theorem fullMatch_times_set_iff {allowed : α → Bool} {n : ℕ} {s : List α} :
    fullMatch (.times (.set allowed) n) s = true ↔ s.length = n ∧ ∀ c ∈ s, allowed c = true := by
  rw [((spans_set allowed).times n).fullMatch_iff, mem_letters_pow]

/-- The non-empty words over a class. -/
theorem mem_letters_mul_wordsOver {allowed : α → Bool} {word : List α} :
    word ∈ letters allowed * wordsOver allowed ↔ word ≠ [] ∧ ∀ c ∈ word, allowed c = true := by
  rw [Language.mem_mul]
  constructor
  · rintro ⟨_, ⟨c, rfl, hc⟩, rest, hrest, rfl⟩
    exact ⟨List.cons_ne_nil _ _, List.forall_mem_cons.mpr ⟨hc, hrest⟩⟩
  · rintro ⟨hne, hword⟩
    obtain ⟨c, rest, rfl⟩ := List.exists_cons_of_ne_nil hne
    obtain ⟨hc, hrest⟩ := List.forall_mem_cons.mp hword
    exact ⟨[c], ⟨c, rfl, hc⟩, rest, hrest, rfl⟩

/-- A full match ends at the end anyway. -/
theorem fullMatch_seq_atEnd (r : Pattern α) (s : List α) :
    fullMatch (.seq r .atEnd) s = fullMatch r s := by
  rw [Bool.eq_iff_iff, fullMatch, fullMatch, List.any_eq_true, List.any_eq_true]
  constructor
  · rintro ⟨e, he, hempty⟩
    obtain ⟨m, hm, hend⟩ := mem_reach_seq.mp he
    obtain ⟨-, rfl⟩ := mem_reach_assert.mp hend
    exact ⟨e, hm, hempty⟩
  · rintro ⟨e, he, hempty⟩
    exact ⟨e, mem_reach_seq.mpr ⟨e, he, mem_reach_assert.mpr ⟨hempty, rfl⟩⟩, hempty⟩

end Regex
