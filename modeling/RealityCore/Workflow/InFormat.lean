import RealityCore.Workflow.RoundTrip

/-!
# Deciding the workflow format

Whether a tree is in the accepted format can be computed. The check is stricter than the format
for the characters of a string, so that no search for a pattern is needed.
-/

namespace RealityCore.Workflow

open Python (Str Dict rstrip splitLines)

/-- A text on one line without a character that the line checks look for. -/
def plainLine (text : Str) : Bool := (text.all fun c => decide (Leading c)) && rstrip text == text

/-- A string that is written behind its key. -/
def plainString (value : Str) : Bool :=
  (match scalar value with
    | .ok (.scalar (.str text)) => text == value
    | _ => false) && !blockIndicators.contains value && plainLine value

/-- A string that is written as a block scalar. -/
def plainBlock (value : Str) : Bool :=
  !(splitLines value).isEmpty && blockString (splitLines value) == value &&
    (splitLines value).all fun line =>
      !line.isEmpty && line.head? != some ' ' && plainLine line

/-- An admissible first entry of a list item. -/
def firstEntry : Dict Str Value → Bool
  | [] => false
  | (key, value) :: others => key != ['-'] &&
    match value with
    | .scalar s => !decide s.IsText
    | .map [] => others.isEmpty
    | _ => true

mutual

/-- The value is in the format. -/
def Value.inFormat : Value → Bool
  | .map entries => entriesInFormat entries
  | .list items => !items.isEmpty && itemsInFormat items
  | .scalar (.str value) => plainString value || plainBlock value
  | .scalar _ => true

/-- The entries are in the format. -/
def entriesInFormat : List (Str × Value) → Bool
  | [] => true
  | (key, value) :: rest => decide (IsKey key) && !(Dict.keys rest).contains key &&
    (value.inFormat && entriesInFormat rest)

/-- The items are in the format. -/
def itemsInFormat : List Value → Bool
  | [] => true
  | .map entries :: rest => firstEntry entries && (entriesInFormat entries && itemsInFormat rest)
  | _ :: _ => false

end

/-- A plain line passes the line checks. -/
theorem lineChecks_of_plainLine {text : Str} (h : plainLine text = true) : LineChecks text := by
  rw [plainLine, Bool.and_eq_true, List.all_eq_true] at h
  exact lineChecks_of_leading (fun c hc => of_decide_eq_true (h.1 c hc)) (eq_of_beq h.2)

/-- A string that is written behind its key is plain. -/
theorem plainString_of_check {value : Str} (h : plainString value = true) : PlainString value := by
  rw [plainString, Bool.and_eq_true, Bool.and_eq_true] at h
  obtain ⟨⟨hscalar, hindicator⟩, hline⟩ := h
  refine ⟨?_, by simpa using hindicator, lineChecks_of_plainLine hline⟩
  split at hscalar
  · next text heq => rw [heq, eq_of_beq hscalar]
  · exact absurd hscalar Bool.false_ne_true

/-- A string that is written as a block scalar is a block string. -/
theorem blockString_of_check {value : Str} (h : plainBlock value = true) : BlockString value := by
  rw [plainBlock, Bool.and_eq_true, Bool.and_eq_true, List.all_eq_true] at h
  obtain ⟨⟨hne, heq⟩, hlines⟩ := h
  refine ⟨splitLines value, by simpa using hne, (eq_of_beq heq).symm, fun line hline => ?_⟩
  have hline := hlines line hline
  rw [Bool.and_eq_true, Bool.and_eq_true] at hline
  obtain ⟨⟨hnil, hhead⟩, hplain⟩ := hline
  exact ⟨by simpa using hnil, by simpa using hhead, lineChecks_of_plainLine hplain⟩

/-- The check of a first entry decides it. -/
theorem firstEntry_of_check {entries : Dict Str Value} (h : firstEntry entries = true) :
    FirstEntry entries := by
  cases entries with
  | nil => exact absurd h Bool.false_ne_true
  | cons entry others =>
    obtain ⟨key, value⟩ := entry
    unfold firstEntry at h
    rw [Bool.and_eq_true] at h
    refine ⟨by simpa using h.1, fun s hs => ?_, fun hnil => ?_⟩
    · subst hs
      simpa using h.2
    · subst hnil
      simpa using h.2

mutual

/-- A checked value is well formed. -/
theorem Value.wellFormed_of_check (value : Value) (h : value.inFormat = true) :
    value.WellFormed := by
  match value with
  | .map entries => exact entriesWellFormed_of_check entries h
  | .list items =>
    rw [Value.inFormat, Bool.and_eq_true] at h
    exact ⟨by simpa using h.1, itemsWellFormed_of_check items h.2⟩
  | .scalar (.str text) =>
    rw [Value.inFormat, Bool.or_eq_true] at h
    exact h.imp plainString_of_check blockString_of_check
  | .scalar (.bool _) => exact trivial
  | .scalar (.int _) => exact trivial

/-- Checked entries are well formed. -/
theorem entriesWellFormed_of_check (entries : List (Str × Value))
    (h : entriesInFormat entries = true) : EntriesWellFormed entries := by
  match entries with
  | [] => exact trivial
  | (key, value) :: rest =>
    rw [entriesInFormat, Bool.and_eq_true, Bool.and_eq_true, Bool.and_eq_true] at h
    obtain ⟨⟨hkey, hnew⟩, hvalue, hrest⟩ := h
    exact ⟨of_decide_eq_true hkey, by simpa using hnew, value.wellFormed_of_check hvalue,
      entriesWellFormed_of_check rest hrest⟩

/-- Checked items are well formed. -/
theorem itemsWellFormed_of_check (items : List Value) (h : itemsInFormat items = true) :
    ItemsWellFormed items := by
  match items with
  | [] => exact trivial
  | .map entries :: rest =>
    rw [itemsInFormat, Bool.and_eq_true, Bool.and_eq_true] at h
    exact ⟨firstEntry_of_check h.1, entriesWellFormed_of_check entries h.2.1,
      itemsWellFormed_of_check rest h.2.2⟩

end

end RealityCore.Workflow
