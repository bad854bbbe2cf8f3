import RealityCore.Library.RegexWords

/-!
# Dates and times in a text

The date-times of ISO 8601 over any alphabet whose characters can be compared with ASCII
characters: a date of this century, a letter or a space, a time to the second, and then a
fraction and a zone or neither. A search for a date-time between word boundaries finds those
that no letter follows directly, so it misses the ones in universal time.
-/

namespace DateTime

open Regex (Pattern Consumes HasBounded IsWordClasses search)

variable {α : Type*}

/-- An alphabet in which ASCII characters, digits and word characters are recognized. -/
structure Alphabet (α : Type*) where
  is : Char → α → Bool
  digit : α → Bool
  isWord : α → Bool
  isWord_two : ∀ c, is '2' c = true → isWord c = true
  isWord_digit : ∀ c, digit c = true → isWord c = true
  not_isWord : ∀ mark ∈ ['.', ',', '+', '-'], ∀ c, is mark c = true → isWord c = false

namespace Alphabet

variable (a : Alphabet α)

/-- `20[0-9]{2}-[0-9]{2}-[0-9]{2}` -/
def date : Pattern α :=
  .concat [.set (a.is '2'), .set (a.is '0'), .times (.set a.digit) 2, .set (a.is '-'),
    .times (.set a.digit) 2, .set (a.is '-'), .times (.set a.digit) 2]

/-- `[T ][0-9]{2}:[0-9]{2}:[0-9]{2}` -/
def time : Pattern α :=
  .concat [.set fun c => a.is 'T' c || a.is ' ' c, .times (.set a.digit) 2, .set (a.is ':'),
    .times (.set a.digit) 2, .set (a.is ':'), .times (.set a.digit) 2]

/-- The classes of the characters of a date. -/
def dateClasses : List (α → Bool) :=
  [a.is '2', a.is '0', a.digit, a.digit, a.is '-', a.digit, a.digit, a.is '-', a.digit, a.digit]

/-- The classes of the characters of a time. -/
def timeClasses : List (α → Bool) :=
  [fun c => a.is 'T' c || a.is ' ' c, a.digit, a.digit, a.is ':', a.digit, a.digit, a.is ':',
    a.digit, a.digit]

/-- The classes of the characters of a date-time. -/
def stampClasses : List (α → Bool) := a.dateClasses ++ a.timeClasses

/-- The characters are of the classes, one for each. -/
def Matches (classes : List (α → Bool)) (word : List α) : Prop :=
  List.Forall₂ (fun allowed c => allowed c = true) classes word

instance decidableMatches (classes : List (α → Bool)) (word : List α) :
    Decidable (Matches classes word) :=
  inferInstanceAs (Decidable (List.Forall₂ (fun allowed c => allowed c = true) classes word))

/-- A fraction of a second. -/
def IsFraction (s : List α) : Prop :=
  ∃ mark digits, s = mark :: digits ∧ (a.is '.' mark = true ∨ a.is ',' mark = true) ∧
    digits ≠ [] ∧ ∀ d ∈ digits, a.digit d = true

/-- A numeric offset: hours, and minutes with or without a colon. -/
def IsOffset (s : List α) : Prop :=
  ∃ sign digits, s = sign :: digits ∧ (a.is '+' sign = true ∨ a.is '-' sign = true) ∧
    (Matches [a.digit, a.digit] digits ∨ Matches [a.digit, a.digit, a.digit, a.digit] digits ∨
      Matches [a.digit, a.digit, a.is ':', a.digit, a.digit] digits)

/-- What stands behind the seconds: a fraction, the letter of universal time or an offset, both
or nothing. -/
def IsSuffix (s : List α) : Prop :=
  ∃ fraction zone, s = fraction ++ zone ∧ (fraction = [] ∨ a.IsFraction fraction) ∧
    (zone = [] ∨ (∃ c, zone = [c] ∧ a.is 'Z' c = true) ∨ a.IsOffset zone)

/-- A text has a date-time with the given suffix, not directly behind a word character and
before a character that is none. -/
def HasStamp (s suffix : List α) : Prop :=
  ∃ front stamp rest, s = front ++ (stamp ++ (suffix ++ rest)) ∧ Matches a.stampClasses stamp ∧
    front.getLast?.any a.isWord = false ∧ a.IsSuffix suffix ∧ rest.head?.any a.isWord = false

/-- A text has a date-time. -/
def HasDateTime (s : List α) : Prop := ∃ suffix, a.HasStamp s suffix

/-- A text has a date-time whose seconds the letter of universal time does not follow. -/
def HasOpenDateTime (s : List α) : Prop :=
  ∃ suffix, a.HasStamp s suffix ∧ suffix.head?.any (a.is 'Z') = false

/-- A date-time with the letter is one. -/
theorem hasDateTime_utc {stamp : List α} {letter : α} (hstamp : Matches a.stampClasses stamp)
    (hletter : a.is 'Z' letter = true) : a.HasDateTime (stamp ++ [letter]) :=
  ⟨[letter], [], stamp, [], rfl, hstamp, rfl,
    ⟨[], [letter], rfl, .inl rfl, .inr (.inl ⟨letter, rfl, hletter⟩)⟩, rfl⟩

/-- A suffix that does not start with the letter starts with no word character. -/
theorem head_of_isSuffix {suffix : List α} (h : a.IsSuffix suffix)
    (hz : suffix.head?.any (a.is 'Z') = false) : suffix.head?.any a.isWord = false := by
  obtain ⟨fraction, zone, rfl, hfraction, hzone⟩ := h
  rcases hfraction with rfl | ⟨mark, digits, rfl, hmark, -, -⟩
  · rcases hzone with rfl | ⟨c, rfl, hc⟩ | ⟨sign, digits, rfl, hsign, -⟩
    · rfl
    · simp [hc] at hz
    · exact hsign.elim (a.not_isWord _ (by decide) sign) (a.not_isWord _ (by decide) sign)
  · exact hmark.elim (a.not_isWord _ (by decide) mark) (a.not_isWord _ (by decide) mark)

/-- A date-time without the letter is one that no word character follows directly. -/
theorem hasOpenDateTime_iff {s : List α} :
    a.HasOpenDateTime s ↔ HasBounded a.isWord a.stampClasses s := by
  constructor
  · rintro ⟨suffix, ⟨front, stamp, rest, rfl, hstamp, hfront, hsuffix, hrest⟩, hz⟩
    refine ⟨front, stamp, suffix ++ rest, rfl, hstamp, hfront, ?_⟩
    cases suffix with
    | nil => exact hrest
    | cons c suffix =>
      have hhead := a.head_of_isSuffix hsuffix hz
      exact hhead
  · rintro ⟨front, stamp, rest, rfl, hstamp, hfront, hrest⟩
    exact ⟨[], ⟨front, stamp, rest, rfl, hstamp, hfront, ⟨[], [], rfl, .inl rfl, .inl rfl⟩, hrest⟩,
      rfl⟩

/-- The pattern of a date spells it. -/
theorem spells_date : a.date.Spells a.dateClasses :=
  Regex.spells_concat (.cons (Regex.spells_set _) (.cons (Regex.spells_set _)
    (.cons ((Regex.spells_set _).times 2) (.cons (Regex.spells_set _)
      (.cons ((Regex.spells_set _).times 2) (.cons (Regex.spells_set _)
        (.cons ((Regex.spells_set _).times 2) .nil)))))))

/-- The pattern of a time spells it. -/
theorem spells_time : a.time.Spells a.timeClasses :=
  Regex.spells_concat (.cons (Regex.spells_set _) (.cons ((Regex.spells_set _).times 2)
    (.cons (Regex.spells_set _) (.cons ((Regex.spells_set _).times 2)
      (.cons (Regex.spells_set _) (.cons ((Regex.spells_set _).times 2) .nil))))))

/-- A date starts and ends with a word character. -/
theorem isWordClasses_date : IsWordClasses a.isWord a.dateClasses :=
  ⟨⟨_, rfl, a.isWord_two⟩, ⟨_, rfl, a.isWord_digit⟩⟩

/-- A date-time starts and ends with a word character. -/
theorem isWordClasses_stamp : IsWordClasses a.isWord a.stampClasses :=
  ⟨⟨_, rfl, a.isWord_two⟩, ⟨_, rfl, a.isWord_digit⟩⟩

/-- A date with an optional time consumes a date or a date-time. -/
theorem mem_reach_date_time {s e : Regex.Cursor α} :
    e ∈ (Pattern.concat [a.date, .optional a.time]).reach s ↔
      Consumes a.dateClasses s e ∨ Consumes a.stampClasses s e := by
  simp only [Pattern.concat, Pattern.empty, Regex.mem_reach_seq, Regex.mem_reach_assert,
    Regex.mem_reach_optional, a.spells_date s, a.spells_time _ _]
  rw [stampClasses, Regex.consumes_append_iff]
  constructor
  · rintro ⟨m, hdate, _, (rfl | ⟨htime, -⟩), -, rfl⟩
    · exact .inl hdate
    · exact .inr ⟨m, hdate, htime⟩
  · rintro (hdate | ⟨m, hdate, htime⟩)
    · exact ⟨e, hdate, e, .inl rfl, trivial, rfl⟩
    · refine ⟨m, hdate, e, .inr ⟨htime, ?_⟩, trivial, rfl⟩
      obtain ⟨word, hword, hafter, -⟩ := htime
      have hlength : word.length = 9 := hword.length_eq.symm
      rw [hafter, List.length_append, hlength]
      omega

/-- A search for a bounded date-time finds the date-times without the letter. -/
theorem search_stamp_isSome_iff {s : List α} :
    (search (.bounded a.isWord (.concat [a.date, a.time])) s).isSome = true ↔
      a.HasOpenDateTime s := by
  have hspells : (Pattern.concat [a.date, a.time]).Spells a.stampClasses :=
    Regex.spells_concat (.cons a.spells_date (.cons a.spells_time .nil))
  have hbody : ∀ s e, e ∈ (Pattern.concat [a.date, a.time]).reach s ↔
      ∃ classes ∈ [a.stampClasses], Consumes classes s e := by
    simpa using fun s e => hspells s e
  rw [Regex.search_bounded_isSome_iff hbody (List.forall_mem_singleton.mpr a.isWordClasses_stamp),
    hasOpenDateTime_iff]
  simp

/-- A search for a bounded date or date-time finds the bounded dates and the date-times without
the letter. -/
theorem search_date_isSome_iff {s : List α} :
    (search (.bounded a.isWord (.concat [a.date, .optional a.time])) s).isSome = true ↔
      HasBounded a.isWord a.dateClasses s ∨ a.HasOpenDateTime s := by
  have hbody : ∀ s e, e ∈ (Pattern.concat [a.date, .optional a.time]).reach s ↔
      ∃ classes ∈ [a.dateClasses, a.stampClasses], Consumes classes s e := by
    simp [mem_reach_date_time]
  have hforms : ∀ classes ∈ [a.dateClasses, a.stampClasses], IsWordClasses a.isWord classes := by
    simp [a.isWordClasses_date, a.isWordClasses_stamp]
  rw [Regex.search_bounded_isSome_iff hbody hforms, hasOpenDateTime_iff]
  simp

/-- A bounded word of such classes starts with a two. -/
theorem exists_two_of_hasBounded {classes : List (α → Bool)} {s : List α}
    (h : HasBounded a.isWord (a.is '2' :: classes) s) : ∃ c ∈ s, a.is '2' c = true := by
  obtain ⟨front, word, rest, rfl, hword, -, -⟩ := h
  obtain ⟨c, tail, hc, -, rfl⟩ := List.forall₂_cons_left_iff.mp hword
  exact ⟨c, by simp, hc⟩

/-- A text without a two has neither a date nor a date-time of this century. -/
theorem search_date_isSome_of_no_two {s : List α} (h : ∀ c ∈ s, a.is '2' c = false) :
    (search (.bounded a.isWord (.concat [a.date, .optional a.time])) s).isSome = false := by
  rw [← Bool.not_eq_true, a.search_date_isSome_iff, hasOpenDateTime_iff]
  have hno : ¬∃ c ∈ s, a.is '2' c = true := fun ⟨c, hc, htwo⟩ => by simp [h c hc] at htwo
  exact fun hfound => hno (hfound.elim a.exists_two_of_hasBounded a.exists_two_of_hasBounded)

end Alphabet

end DateTime
