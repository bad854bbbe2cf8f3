import RealityCore.Library.Regex

/-!
# Runs of a character class

What a repeated class can reach, and the two questions that follow: whether a whole text is
one non-empty run of a class, and whether some place of a text has two given characters
behind a boundary.
-/

namespace Regex

variable {α : Type*}

/-- One character of a class is consumed. -/
theorem mem_reach_set {allowed : α → Bool} {s e : Cursor α} :
    e ∈ (Pattern.set allowed).reach s ↔
      ∃ c rest, s.after = c :: rest ∧ allowed c = true ∧ e = ⟨c :: s.before, rest⟩ := by
  obtain ⟨before, after⟩ := s
  cases after with
  | nil => simp [Pattern.reach]
  | cons c rest =>
    by_cases h : allowed c = true
    · simp [Pattern.reach, h]
    · simp [Pattern.reach, h]

/-- A run of a class can be consumed to its end. -/
theorem mem_greedy_set {allowed : α → Bool} (before run : List α)
    (h : ∀ c ∈ run, allowed c = true) {n : ℕ} (hn : run.length ≤ n) :
    ⟨run.reverse ++ before, []⟩ ∈ greedy (Pattern.set allowed).reach n ⟨before, run⟩ := by
  induction run generalizing before n with
  | nil => cases n <;> simp [greedy]
  | cons c run ih =>
    cases n with
    | zero => simp at hn
    | succ n =>
      have hrest := ih (c :: before) (fun d hd => h d (List.mem_cons_of_mem c hd))
        (Nat.le_of_succ_le_succ hn)
      rw [greedy, List.mem_append, List.mem_flatMap]
      refine .inl ⟨⟨c :: before, run⟩, ?_, by simpa using hrest⟩
      rw [List.mem_filter, mem_reach_set]
      exact ⟨⟨c, run, rfl, h c List.mem_cons_self, rfl⟩, by simp⟩

/-- Consuming nothing is the last choice of a repetition. -/
theorem self_mem_greedy {step : Cursor α → List (Cursor α)} {n : ℕ} {s : Cursor α} :
    s ∈ greedy step n s := by
  cases n <;> simp [greedy]

/-- What is consumed of a repeated class is a run of the class. -/
theorem of_mem_greedy_set {allowed : α → Bool} {n : ℕ} {s e : Cursor α}
    (h : e ∈ greedy (Pattern.set allowed).reach n s) :
    ∃ run, s.after = run ++ e.after ∧ ∀ c ∈ run, allowed c = true := by
  induction n generalizing s with
  | zero =>
    obtain rfl := List.mem_singleton.mp h
    exact ⟨[], rfl, by simp⟩
  | succ n ih =>
    rw [greedy, List.mem_append, List.mem_flatMap, List.mem_singleton] at h
    rcases h with ⟨next, hnext, he⟩ | rfl
    · obtain ⟨c, rest, hafter, hc, rfl⟩ := mem_reach_set.mp (List.mem_filter.mp hnext).1
      obtain ⟨run, hrun, hall⟩ := ih he
      refine ⟨c :: run, by rw [hafter, List.cons_append, ← hrun], ?_⟩
      exact List.forall_mem_cons.mpr ⟨hc, hall⟩
    · exact ⟨[], rfl, by simp⟩

/-- `[..]+` consumes one character of the class and then a run of the class. -/
theorem mem_reach_plus_set {allowed : α → Bool} {s e : Cursor α} :
    e ∈ (Pattern.plus (.set allowed)).reach s ↔
      ∃ c rest, s.after = c :: rest ∧ allowed c = true ∧
        e ∈ greedy (Pattern.set allowed).reach rest.length ⟨c :: s.before, rest⟩ := by
  simp only [Pattern.plus, Pattern.reach, List.mem_flatMap, Option.getD_none]
  constructor
  · rintro ⟨m, hm, he⟩
    obtain ⟨m', hm', hmm'⟩ := List.mem_flatMap.mp hm
    obtain ⟨c, rest, hafter, hc, rfl⟩ := mem_reach_set.mp hm'
    obtain rfl := List.mem_singleton.mp hmm'
    exact ⟨c, rest, hafter, hc, he⟩
  · rintro ⟨c, rest, hafter, hc, he⟩
    refine ⟨⟨c :: s.before, rest⟩, List.mem_flatMap.mpr ?_, he⟩
    exact ⟨_, mem_reach_set.mpr ⟨c, rest, hafter, hc, rfl⟩, List.mem_singleton.mpr rfl⟩

/-- `[..]+` matches exactly the non-empty texts over the class. -/
theorem fullMatch_plus_set_iff {allowed : α → Bool} {s : List α} :
    fullMatch (.plus (.set allowed)) s = true ↔ s ≠ [] ∧ ∀ c ∈ s, allowed c = true := by
  rw [fullMatch, List.any_eq_true]
  constructor
  · rintro ⟨e, he, hempty⟩
    obtain ⟨c, rest, rfl, hc, he⟩ := mem_reach_plus_set.mp he
    obtain ⟨run, hrun, hall⟩ := of_mem_greedy_set he
    obtain rfl : rest = run := by simpa [List.isEmpty_iff.mp hempty] using hrun
    exact ⟨List.cons_ne_nil c rest, List.forall_mem_cons.mpr ⟨hc, hall⟩⟩
  · rintro ⟨hne, hall⟩
    cases s with
    | nil => exact absurd rfl hne
    | cons c rest =>
      obtain ⟨hc, hrest⟩ := List.forall_mem_cons.mp hall
      have hrun := mem_greedy_set [c] rest hrest (Nat.le_refl _)
      exact ⟨_, mem_reach_plus_set.mpr ⟨c, rest, rfl, hc, hrun⟩, rfl⟩

/-- `(^|[..])[..][..]+`: a marked run at the start of the text or after a boundary character. -/
def Pattern.markedRun (boundary mark allowed : α → Bool) : Pattern α :=
  .seq (.alt .atStart (.set boundary)) (.seq (.set mark) (.plus (.set allowed)))

/-- A text has a marked run where a mark at its start or after a boundary character is
followed by a character of the class. -/
def HasMarkedRun (boundary mark allowed : α → Bool) (s : List α) : Prop :=
  ∃ front m c rest, s = front ++ m :: c :: rest ∧ (∀ b ∈ front.getLast?, boundary b = true) ∧
    mark m = true ∧ allowed c = true

/-- A search finds something exactly when some position of the subject has an end. -/
theorem search_isSome_iff {r : Pattern α} {subject : List α} :
    (search r subject).isSome = true ↔
      ∃ start stop, start.subject = subject ∧ stop ∈ r.reach start := by
  constructor
  · intro h
    obtain ⟨m, hm⟩ := Option.isSome_iff_exists.mp h
    obtain ⟨⟨hsubject, hat⟩, -⟩ := search_eq_some_iff.mp hm
    obtain ⟨stop, hstop, -⟩ := Option.map_eq_some_iff.mp hat
    exact ⟨m.start, stop, hsubject, List.mem_of_head? hstop⟩
  · rintro ⟨start, stop, hsubject, hstop⟩
    rw [Option.isSome_iff_ne_none, Ne, search_eq_none_iff]
    intro hnone
    obtain ⟨first, hfirst⟩ := Option.isSome_iff_exists.mp
      (List.isSome_head?.mpr (List.ne_nil_of_mem hstop))
    exact hnone ⟨start, first⟩ ⟨hsubject, by rw [matchAt, hfirst]; rfl⟩

/-- A search finds nothing in a subject without the characters that every match needs. -/
theorem search_isSome_eq_false {r : Pattern α} {needed : α → Prop} {subject : List α}
    (hneeds : ∀ s e, e ∈ r.reach s → ∃ c ∈ s.after, needed c) (h : ∀ c ∈ subject, ¬needed c) :
    (search r subject).isSome = false := by
  rw [Bool.eq_false_iff, Ne, search_isSome_iff]
  rintro ⟨start, stop, rfl, hstop⟩
  obtain ⟨c, hc, hneeded⟩ := hneeds start stop hstop
  exact h c (List.mem_append_right _ hc) hneeded

/-- A mark and a character of the class can be consumed where they stand. -/
theorem exists_mem_reach_mark_iff {mark allowed : α → Bool} {s : Cursor α} :
    (∃ e, e ∈ (Pattern.seq (.set mark) (.plus (.set allowed))).reach s) ↔
      ∃ m c rest, s.after = m :: c :: rest ∧ mark m = true ∧ allowed c = true := by
  simp only [Pattern.reach, List.mem_flatMap]
  constructor
  · rintro ⟨e, next, hnext, he⟩
    obtain ⟨m, _, hafter, hm, rfl⟩ := mem_reach_set.mp hnext
    obtain ⟨c, rest, rfl, hc, -⟩ := mem_reach_plus_set.mp he
    exact ⟨m, c, rest, hafter, hm, hc⟩
  · rintro ⟨m, c, rest, hafter, hm, hc⟩
    refine ⟨⟨c :: m :: s.before, rest⟩, ⟨m :: s.before, c :: rest⟩, ?_, ?_⟩
    · exact mem_reach_set.mpr ⟨m, c :: rest, hafter, hm, rfl⟩
    · exact mem_reach_plus_set.mpr ⟨c, rest, rfl, hc, self_mem_greedy⟩

/-- The lead of a marked run ends at the start of the subject or behind a boundary character. -/
theorem exists_mem_reach_lead_iff {boundary : α → Bool} {subject : List α} {next : Cursor α} :
    (∃ start, start.subject = subject ∧
        next ∈ (Pattern.alt .atStart (.set boundary)).reach start) ↔
      next.subject = subject ∧ ∀ b ∈ next.before.head?, boundary b = true := by
  simp only [Pattern.reach, Pattern.atStart, List.mem_append]
  constructor
  · rintro ⟨start, rfl, hstart | hset⟩
    · by_cases hbefore : start.before = []
      · obtain rfl : next = start := by simpa [hbefore] using hstart
        simp [hbefore]
      · simp [hbefore] at hstart
    · obtain ⟨b, rest, hafter, hb, rfl⟩ := mem_reach_set.mp hset
      exact ⟨by simp [Cursor.subject, hafter], by simpa using hb⟩
  · obtain ⟨before, after⟩ := next
    rintro ⟨rfl, hboundary⟩
    cases before with
    | nil => exact ⟨⟨[], after⟩, rfl, .inl (by simp)⟩
    | cons b before =>
      have hset : ⟨b :: before, after⟩ ∈ (Pattern.set boundary).reach ⟨before, b :: after⟩ :=
        mem_reach_set.mpr ⟨b, after, rfl, hboundary b rfl, rfl⟩
      exact ⟨⟨before, b :: after⟩, by simp [Cursor.subject], .inr hset⟩

/-- The search for a marked run finds something exactly when the text has one. -/
theorem search_markedRun_isSome_iff {boundary mark allowed : α → Bool} {s : List α} :
    (search (.markedRun boundary mark allowed) s).isSome = true ↔
      HasMarkedRun boundary mark allowed s := by
  rw [search_isSome_iff]
  constructor
  · rintro ⟨start, stop, hsubject, hstop⟩
    obtain ⟨next, hnext, hstop⟩ := List.mem_flatMap.mp hstop
    obtain ⟨hnext, hfront⟩ := exists_mem_reach_lead_iff.mp ⟨start, hsubject, hnext⟩
    obtain ⟨m, c, rest, hafter, hm, hc⟩ := exists_mem_reach_mark_iff.mp ⟨stop, hstop⟩
    refine ⟨next.before.reverse, m, c, rest, ?_, ?_, hm, hc⟩
    · rw [← hnext, Cursor.subject, hafter]
    · rwa [List.getLast?_reverse]
  · rintro ⟨front, m, c, rest, rfl, hfront, hm, hc⟩
    obtain ⟨stop, hstop⟩ := (exists_mem_reach_mark_iff (s := ⟨front.reverse, m :: c :: rest⟩)).mpr
      ⟨m, c, rest, rfl, hm, hc⟩
    have hlead : Cursor.subject ⟨front.reverse, m :: c :: rest⟩ = front ++ m :: c :: rest := by
      rw [Cursor.subject, List.reverse_reverse]
    have hback : ∀ b ∈ front.reverse.head?, boundary b = true := by rwa [List.head?_reverse]
    obtain ⟨start, hsubject, hnext⟩ := exists_mem_reach_lead_iff.mpr ⟨hlead, hback⟩
    exact ⟨start, stop, hsubject, List.mem_flatMap.mpr ⟨_, hnext, hstop⟩⟩

end Regex
