import RealityCore.Sbom.Walk

/-!
# Date-times that the guards catch

The guard of the artifacts and that of the bill of materials look for a date-time between word
boundaries. The letter of universal time is a word character, so both pass over a date-time that
it follows directly, as long as nothing else is wrong. The guard of the bill of materials finds a
date alone too, so there a space before the time gives the date-time away.
-/

namespace RealityCore.Sbom

open Archive (byteAlphabet otherwiseRefused validateContent)
open Outcome (forM_eq_error_iff exists_forM_eq_error)
open Python (Str Bytes Text CodePoint Json encode? textAlphabet)
open Python.Json (entries memberEntries itemEntries height memberHeight itemHeight)
open Regex (Pattern HasBounded search)

variable {isAlnum : CodePoint → Bool}

/-- A text can be encoded. -/
def IsEncodable (entry : Text × Json) : Prop :=
  ∀ text, entry.2 = .str text → encode? text ≠ none

/-- A text has a date by itself, or a date-time that the letter of universal time does not
follow. -/
def HasPlainDate (isAlnum : CodePoint → Bool) (text : Text) : Prop :=
  HasBounded (textAlphabet isAlnum).isWord (textAlphabet isAlnum).dateClasses text ∨
    (textAlphabet isAlnum).HasOpenDateTime text

/-- A text that can be encoded is too long, or has a local path or a plain date. -/
def IsObjectionableText (isAlnum : CodePoint → Bool) (text : Text) : Prop :=
  ∃ encoded, encode? text = some encoded ∧
    (encoded.length > MAX_STRING_BYTES ∨ (search POSIX_ABSOLUTE_RE encoded).isSome = true ∨
      (search WINDOWS_ABSOLUTE_RE encoded).isSome = true ∨ HasPlainDate isAlnum text)

/-- A value stands under a forbidden key, or is an objectionable text. -/
def IsObjectionable (isAlnum : CodePoint → Bool) (entry : Text × Json) : Prop :=
  isForbiddenKey entry.1 = true ∨
    ∃ text, entry.2 = .str text ∧ IsObjectionableText isAlnum text

/-- A document has an objectionable value, and no text before it that cannot be encoded. -/
def HasObjection (isAlnum : CodePoint → Bool) (document : List (Text × Json)) : Prop :=
  ∃ front entry rest, entries [] (.object document) = front ++ entry :: rest ∧
    (∀ passed ∈ front, IsEncodable passed) ∧ IsObjectionable isAlnum entry

/-- A document has a date-time in one of its texts. -/
def HasDateTimeText (isAlnum : CodePoint → Bool) (document : List (Text × Json)) : Prop :=
  ∃ key text, (key, .str text) ∈ entries [] (.object document) ∧
    (textAlphabet isAlnum).HasDateTime text

/-- A text is refused exactly when it is objectionable. -/
theorem rejectText_refuses_iff {text : Text} :
    (∃ message, rejectText isAlnum text = .error (.validationError message)) ↔
      IsObjectionableText isAlnum text := by
  have hdate : (search (TIMESTAMP_VALUE_RE isAlnum) text).isSome = true ↔
      HasPlainDate isAlnum text := (textAlphabet isAlnum).search_date_isSome_iff
  rw [IsObjectionableText, rejectText]
  cases hencode : encode? text with
  | none => simp
  | some encoded =>
    simp only [Option.some.injEq, exists_eq_left', ← hdate, refuse]
    split_ifs with hlong hpath hplain
    · exact iff_of_true ⟨_, rfl⟩ (.inl hlong)
    · rw [Bool.or_eq_true] at hpath
      exact iff_of_true ⟨_, rfl⟩ (.inr (hpath.imp_right .inl))
    · exact iff_of_true ⟨_, rfl⟩ (.inr (.inr (.inr hplain)))
    · rw [Bool.or_eq_true, not_or] at hpath
      exact iff_of_false nofun fun h =>
        h.elim hlong fun h => h.elim hpath.1 fun h => h.elim hpath.2 hplain

/-- A text is neither refused nor accepted exactly when it cannot be encoded. -/
theorem rejectText_unicodeEncodeError_iff {text : Text} :
    rejectText isAlnum text = .error .unicodeEncodeError ↔ encode? text = none := by
  rw [rejectText]
  cases hencode : encode? text with
  | none => simp
  | some encoded =>
    simp only [refuse]
    split_ifs <;> simp

/-- A value is refused exactly when it is objectionable. -/
theorem rejectEntry_refuses_iff {entry : Text × Json} :
    (∃ message, rejectEntry isAlnum entry.1 entry.2 = .error (.validationError message)) ↔
      IsObjectionable isAlnum entry := by
  obtain ⟨key, value⟩ := entry
  unfold IsObjectionable rejectEntry
  by_cases hkey : isForbiddenKey key = true
  · rw [if_pos hkey]
    exact iff_of_true ⟨_, rfl⟩ (.inl hkey)
  · rw [if_neg hkey, or_iff_right hkey]
    cases value with
    | str text => simpa using @rejectText_refuses_iff isAlnum text
    | _ => simp

/-- A value is accepted only when it can be encoded. -/
theorem isEncodable_of_rejectEntry {entry : Text × Json}
    (h : rejectEntry isAlnum entry.1 entry.2 = .ok ()) : IsEncodable entry := by
  obtain ⟨key, value⟩ := entry
  rintro text rfl hencode
  unfold rejectEntry at h
  split at h
  · cases h
  · exact absurd (h.symm.trans (rejectText_unicodeEncodeError_iff.mpr hencode)) nofun

/-- The error that is not caught comes from a value that cannot be encoded. -/
theorem not_isEncodable_of_rejectEntry {entry : Text × Json}
    (h : rejectEntry isAlnum entry.1 entry.2 = .error .unicodeEncodeError) :
    ¬IsEncodable entry := by
  obtain ⟨key, value⟩ := entry
  intro hencodable
  unfold rejectEntry at h
  split at h
  · cases h
  · cases value with
    | str text => exact hencodable text rfl (rejectText_unicodeEncodeError_iff.mp h)
    | _ => cases h

mutual

/-- Within the admitted depth the walk visits the values of a document one by one. -/
theorem walk_eq_forM (visit : Text → Json → Result Unit) (value : Json) (key : Text) (depth : ℕ)
    (h : height value + depth ≤ MAX_DEPTH) :
    walk visit value key depth = forM (entries key value) fun entry => visit entry.1 entry.2 := by
  have hdepth : ¬depth > MAX_DEPTH := by omega
  match value with
  | .object members =>
    rw [walk, if_neg hdepth, walkMembers_eq_forM visit members (depth + 1) (by
      rw [height] at h; omega)]
    rfl
  | .list items =>
    rw [walk, if_neg hdepth, walkItems_eq_forM visit items key (depth + 1) (by
      rw [height] at h; omega)]
    rfl
  | .null | .bool _ | .int _ | .float _ | .str _ =>
    simp [walk, entries, hdepth]

/-- The walk over the members of an object. -/
theorem walkMembers_eq_forM (visit : Text → Json → Result Unit) (members : List (Text × Json))
    (depth : ℕ) (h : memberHeight members + depth ≤ MAX_DEPTH + 1) :
    walkMembers visit members depth =
      forM (memberEntries members) fun entry => visit entry.1 entry.2 := by
  match members with
  | [] => rfl
  | (key, value) :: rest =>
    rw [memberHeight] at h
    rw [walkMembers, walk_eq_forM visit value key depth (by omega),
      walkMembers_eq_forM visit rest depth (by omega), ← List.forM_append]
    rfl

/-- The walk over the items of a list. -/
theorem walkItems_eq_forM (visit : Text → Json → Result Unit) (items : List Json) (key : Text)
    (depth : ℕ) (h : itemHeight items + depth ≤ MAX_DEPTH + 1) :
    walkItems visit items key depth =
      forM (itemEntries key items) fun entry => visit entry.1 entry.2 := by
  match items with
  | [] => rfl
  | value :: rest =>
    rw [itemHeight] at h
    rw [walkItems, walk_eq_forM visit value key depth (by omega),
      walkItems_eq_forM visit rest key depth (by omega), ← List.forM_append]
    rfl

end

/-- Within the admitted depth a document is refused exactly when it has an objectionable value and
no text before it that cannot be encoded. -/
theorem rejectPathsAndTimestamps_refuses_iff {document : List (Text × Json)}
    (hheight : height (.object document) ≤ MAX_DEPTH) :
    (∃ message, rejectPathsAndTimestamps isAlnum document = .error (.validationError message)) ↔
      HasObjection isAlnum document := by
  rw [rejectPathsAndTimestamps, walk_eq_forM _ _ _ _ hheight, HasObjection]
  constructor
  · rintro ⟨message, h⟩
    obtain ⟨front, entry, rest, heq, hfront, hentry⟩ := forM_eq_error_iff.mp h
    refine ⟨front, entry, rest, heq, fun passed hpassed => ?_, ?_⟩
    · exact isEncodable_of_rejectEntry (hfront passed hpassed)
    · exact rejectEntry_refuses_iff.mp ⟨message, hentry⟩
  · rintro ⟨front, entry, rest, heq, hfront, hentry⟩
    obtain ⟨message, hrefused⟩ := rejectEntry_refuses_iff.mpr hentry
    let check : Text × Json → Result Unit := fun entry => rejectEntry isAlnum entry.1 entry.2
    have hcheck : check entry = .error (.validationError message) := hrefused
    obtain ⟨failed, hmem, failure, hfailed, hloop⟩ := exists_forM_eq_error front rest hcheck
    rw [heq, hloop]
    cases failure with
    | validationError text => exact ⟨text, rfl⟩
    | unicodeEncodeError =>
      rcases List.mem_append.mp hmem with hbefore | hlast
      · exact absurd (hfront failed hbefore) (not_isEncodable_of_rejectEntry hfailed)
      · rw [List.mem_singleton.mp hlast] at hfailed
        exact absurd (hrefused.symm.trans hfailed) nofun

/-- The guards catch a date-time exactly when something else is wrong too, or a date-time is not in
universal time: octets with a date-time are refused when another check refuses them or one of their
date-times is open, and a document with a date-time in a text when it has an objectionable value
and no text before it that cannot be encoded. -/
theorem guards_catch_iff (isAlnum : CodePoint → Bool) :
    (∀ data label allowBinary, byteAlphabet.HasDateTime data →
        ((∃ message, validateContent data label allowBinary = .error (.artifactError message)) ↔
          otherwiseRefused data allowBinary = true ∨ byteAlphabet.HasOpenDateTime data)) ∧
      ∀ document, height (.object document) ≤ MAX_DEPTH → HasDateTimeText isAlnum document →
        ((∃ message, rejectPathsAndTimestamps isAlnum document =
            .error (.validationError message)) ↔ HasObjection isAlnum document) :=
  ⟨fun _ _ _ _ => Archive.validateContent_refuses_iff,
    fun _ hheight _ => rejectPathsAndTimestamps_refuses_iff hheight⟩

/-- The start of a year in universal time. -/
def newYear : String := "2024-01-01T00:00:00Z"

/-- A document with one text. -/
def documentOf (text : String) : List (Text × Json) :=
  [(Python.points "text", .str (Python.points text))]

/-- The octets of the start of a year have a date-time. -/
theorem hasDateTime_newYear : byteAlphabet.HasDateTime (Archive.bytes newYear) := by
  have hsplit : Archive.bytes newYear =
      Archive.bytes "2024-01-01T00:00:00" ++ Archive.bytes "Z" := by decide
  rw [hsplit]
  exact byteAlphabet.hasDateTime_utc (by decide) rfl

/-- A document with the start of a year has a date-time. -/
theorem hasDateTimeText_newYear : HasDateTimeText (fun _ => false) (documentOf newYear) := by
  have hsplit : Python.points newYear =
      Python.points "2024-01-01T00:00:00" ++ Python.points "Z" := by decide
  refine ⟨Python.points "text", Python.points newYear, ?_, ?_⟩
  · simp [entries, memberEntries, documentOf]
  · rw [hsplit]
    exact (textAlphabet fun _ => false).hasDateTime_utc (by decide) rfl

/-- The octets of the start of a year are accepted. -/
theorem validateContent_newYear : validateContent (Archive.bytes newYear) [] false = .ok () := by
  decide +kernel

/-- A document with the start of a year is accepted. -/
theorem rejectPathsAndTimestamps_newYear :
    rejectPathsAndTimestamps (fun _ => false) (documentOf newYear) = .ok () := by
  decide +kernel

/-- Neither guard catches the start of a year, which nothing else refuses. -/
theorem guards_catch_iff_newYear :
    (¬(∃ message, validateContent (Archive.bytes newYear) [] false =
          .error (.artifactError message)) ∧
        ¬(otherwiseRefused (Archive.bytes newYear) false = true ∨
          byteAlphabet.HasOpenDateTime (Archive.bytes newYear))) ∧
      ¬(∃ message, rejectPathsAndTimestamps (fun _ => false) (documentOf newYear) =
          .error (.validationError message)) ∧
        ¬HasObjection (fun _ => false) (documentOf newYear) := by
  have hbytes := (guards_catch_iff fun _ => false).1 _ [] false hasDateTime_newYear
  have hdocument := (guards_catch_iff fun _ => false).2 _ (by decide) hasDateTimeText_newYear
  rw [← hbytes, ← hdocument, validateContent_newYear, rejectPathsAndTimestamps_newYear]
  simp

/-- The start of a year in universal time passes both guards. -/
theorem guards_miss_newYear :
    (byteAlphabet.HasDateTime (Archive.bytes newYear) ∧
        validateContent (Archive.bytes newYear) [] false = .ok ()) ∧
      height (.object (documentOf newYear)) ≤ MAX_DEPTH ∧
        HasDateTimeText (fun _ => false) (documentOf newYear) ∧
          rejectPathsAndTimestamps (fun _ => false) (documentOf newYear) = .ok () :=
  ⟨⟨hasDateTime_newYear, validateContent_newYear⟩, by decide, hasDateTimeText_newYear,
    rejectPathsAndTimestamps_newYear⟩

end RealityCore.Sbom
