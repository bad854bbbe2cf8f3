import RealityCore.Library.RegexLanguage
import RealityCore.Toolchain.Manifest

/-!
# The properties of a Java runtime

`java -XshowSettings:properties` writes a property on an indented line of its own. `_properties`
keeps the properties in their order, skips all other lines, and refuses a key that comes twice.
-/

namespace RealityCore.Toolchain

open Outcome (bind_eq_ok_iff guard_eq_ok_iff)
open Python (CodePoint Dict Str forall_mem_of_all isLineBreak isSpace points splitLines unlines)
open Regex (Pattern fullMatch letters wordsOver)

/-- `[A-Za-z0-9_.]` -/
def isPropertyChar (c : Char) : Bool := c.isAlphanum || c == '_' || c == '.'

/-- `\s+([A-Za-z0-9_.]+) = (.*)` -/
def PROPERTY_RE : Pattern Char :=
  .concat [.plus (.set isSpace), .plus (.set isPropertyChar), .text " = ".toList,
    .star (.set (· != '\n'))]

/-- The groups of a match: the key, and what follows the sign behind it. -/
def propertyOf (line : Str) : Option (Str × Str) :=
  if fullMatch PROPERTY_RE line then
    let unindented := line.dropWhile isSpace
    some (unindented.takeWhile isPropertyChar, (unindented.dropWhile isPropertyChar).drop 3)
  else none

/-- `raise VerificationError(f"duplicate Java property {key}")` -/
def duplicateProperty (key : Str) : Failure :=
  .verificationError (points "duplicate Java property " ++ key.map CodePoint.ofChar)

/-- One round of the loop over the lines. -/
def addProperty (values : Dict Str Str) (line : Str) : Result (Dict Str Str) :=
  match propertyOf line with
  | none => .ok values
  | some (key, value) =>
    if key ∈ values.keys then .error (duplicateProperty key) else .ok (values.set key value)

/-- `_properties(output)` -/
def properties (output : Str) : Result (Dict Str Str) := (splitLines output).foldlM addProperty []

/-! ## Lines -/

/-- A line that holds a property. -/
structure IsProperty (line key value : Str) : Prop where
  key_ne_nil : key ≠ []
  key_chars : ∀ c ∈ key, isPropertyChar c = true
  value_chars : ∀ c ∈ value, (c != '\n') = true
  eq : ∃ indent, indent ≠ [] ∧ (∀ c ∈ indent, isSpace c = true) ∧
    line = indent ++ (key ++ (" = ".toList ++ value))

/-- A character of a key is neither white space nor before an equals sign. -/
theorem isSpace_of_isPropertyChar {c : Char} (h : isPropertyChar c = true) :
    isSpace c = false := by
  have halpha : c.isAlpha = (decide (c.val ≥ 'A'.val ∧ c.val ≤ 'Z'.val) ||
      (decide (c.val ≥ 'a'.val) && decide (c.val ≤ 'z'.val))) := rfl
  simp only [isPropertyChar, Char.isAlphanum, halpha, Char.isDigit, Bool.or_eq_true,
    Bool.and_eq_true, decide_eq_true_eq, beq_iff_eq, ge_iff_le, UInt32.le_iff_toNat_le] at h
  have hspace : ¬isSpace c = true := by
    simp only [isSpace, Bool.or_eq_true, Bool.and_eq_true, decide_eq_true_eq, beq_iff_eq]
    rcases h with ((h | h) | rfl) | rfl
    · change (65 ≤ c.toNat ∧ c.toNat ≤ 90) ∨ (97 ≤ c.toNat ∧ c.toNat ≤ 122) at h
      omega
    · change 48 ≤ c.toNat ∧ c.toNat ≤ 57 at h
      omega
    all_goals decide
  simpa using hspace

/-- The pattern matches the lines that hold a property. -/
theorem fullMatch_PROPERTY_RE_iff {line : Str} :
    fullMatch PROPERTY_RE line = true ↔ ∃ key value, IsProperty line key value := by
  have hspans : PROPERTY_RE.Spans [letters isSpace * wordsOver isSpace,
      letters isPropertyChar * wordsOver isPropertyChar, {" = ".toList},
      wordsOver (· != '\n')].prod := by
    exact Regex.spans_concat (.cons (Regex.spans_plus_set _) (.cons (Regex.spans_plus_set _)
      (.cons (Regex.spans_text _) (.cons (Regex.spans_star_set _) .nil))))
  rw [hspans.fullMatch_iff, List.prod_cons, List.prod_cons, List.prod_cons, List.prod_singleton,
    Language.mem_mul]
  constructor
  · rintro ⟨indent, hindent, behind, hbehind, rfl⟩
    obtain ⟨key, hkey, rest, hrest, rfl⟩ := Language.mem_mul.mp hbehind
    obtain ⟨_, rfl, value, hvalue, rfl⟩ := Language.mem_mul.mp hrest
    obtain ⟨hne, hspaces⟩ := Regex.mem_letters_mul_wordsOver.mp hindent
    obtain ⟨hkeyNe, hchars⟩ := Regex.mem_letters_mul_wordsOver.mp hkey
    exact ⟨key, value, hkeyNe, hchars, hvalue, indent, hne, hspaces, rfl⟩
  · rintro ⟨key, value, hkeyNe, hchars, hvalue, indent, hne, hspaces, rfl⟩
    refine ⟨indent, Regex.mem_letters_mul_wordsOver.mpr ⟨hne, hspaces⟩, _, ?_, rfl⟩
    refine Language.mem_mul.mpr ⟨key, Regex.mem_letters_mul_wordsOver.mpr ⟨hkeyNe, hchars⟩, _, ?_,
      rfl⟩
    exact Language.mem_mul.mpr ⟨_, rfl, value, hvalue, rfl⟩

/-- The groups of a line that holds a property are its key and its value. -/
theorem IsProperty.groups {line key value : Str} (h : IsProperty line key value) :
    (line.dropWhile isSpace).takeWhile isPropertyChar = key ∧
      ((line.dropWhile isSpace).dropWhile isPropertyChar).drop 3 = value := by
  obtain ⟨indent, -, hspaces, rfl⟩ := h.eq
  have hbehind : (indent ++ (key ++ (" = ".toList ++ value))).dropWhile isSpace =
      key ++ (" = ".toList ++ value) := by
    rw [List.dropWhile_append_of_pos hspaces]
    obtain ⟨c, rest, hkey⟩ := List.exists_cons_of_ne_nil h.key_ne_nil
    have hc := isSpace_of_isPropertyChar (h.key_chars c (hkey ▸ List.mem_cons_self))
    rw [hkey, List.cons_append, List.dropWhile_cons_of_neg (by simp [hc])]
  rw [hbehind, List.takeWhile_append_of_pos h.key_chars, List.dropWhile_append_of_pos h.key_chars]
  exact ⟨List.append_nil key, rfl⟩

/-- A line is read as the property that it holds. -/
theorem propertyOf_eq_some_iff {line key value : Str} :
    propertyOf line = some (key, value) ↔ IsProperty line key value := by
  have hgroups (k v : Str) (hline : IsProperty line k v) : propertyOf line = some (k, v) := by
    rw [propertyOf, if_pos (fullMatch_PROPERTY_RE_iff.mpr ⟨k, v, hline⟩)]
    dsimp only
    rw [hline.groups.1, hline.groups.2]
  constructor
  · intro h
    by_cases hmatch : fullMatch PROPERTY_RE line = true
    · obtain ⟨k, v, hline⟩ := fullMatch_PROPERTY_RE_iff.mp hmatch
      obtain ⟨rfl, rfl⟩ := Prod.mk.inj (Option.some.inj ((hgroups k v hline).symm.trans h))
      exact hline
    · rw [propertyOf, if_neg hmatch] at h
      cases h
  · exact hgroups key value

/-- A line that is not indented holds no property. -/
theorem propertyOf_eq_none {c : Char} (hc : isSpace c = false) (rest : Str) :
    propertyOf (c :: rest) = none := by
  refine Option.eq_none_iff_forall_ne_some.mpr ?_
  rintro ⟨key, value⟩ hproperty
  obtain ⟨indent, hne, hspaces, heq⟩ := (propertyOf_eq_some_iff.mp hproperty).eq
  obtain ⟨first, behind, rfl⟩ := List.exists_cons_of_ne_nil hne
  rw [(List.cons.inj heq).1, hspaces first List.mem_cons_self] at hc
  cases hc

/-! ## Outputs -/

/-- The loop over lines appends their properties, when all keys are distinct. -/
theorem foldlM_addProperty_eq_ok_iff {lines : List Str} {values result : Dict Str Str}
    (hvalues : values.keys.Nodup) :
    lines.foldlM addProperty values = .ok result ↔
      result = values ++ lines.filterMap propertyOf ∧ result.keys.Nodup := by
  induction lines generalizing values with
  | nil =>
    simp only [List.foldlM_nil, List.filterMap_nil, List.append_nil]
    constructor
    · rintro ⟨⟩
      exact ⟨rfl, hvalues⟩
    · rintro ⟨rfl, -⟩
      rfl
  | cons line lines ih =>
    rw [List.foldlM_cons, addProperty]
    cases hproperty : propertyOf line with
    | none => exact (ih hvalues).trans (by rw [List.filterMap_cons_none hproperty])
    | some property =>
      obtain ⟨key, value⟩ := property
      rw [List.filterMap_cons_some hproperty]
      dsimp only
      by_cases hkey : key ∈ values.keys
      · rw [if_pos hkey]
        refine iff_of_false (by simp [bind, Except.bind]) ?_
        rintro ⟨rfl, hnodup⟩
        rw [Dict.keys, List.map_append] at hnodup
        exact List.disjoint_of_nodup_append hnodup hkey (by simp)
      · rw [if_neg hkey]
        have hset := Python.Dict.set_of_notMem hkey value
        refine (ih (Python.Dict.nodup_keys_set hvalues key value)).trans ?_
        rw [hset, List.append_assoc, List.singleton_append]

/-- The output is read as the properties on its lines, when their keys are distinct. -/
theorem properties_eq_ok_iff {output : Str} {values : Dict Str Str} :
    properties output = .ok values ↔
      values = (splitLines output).filterMap propertyOf ∧ values.keys.Nodup :=
  foldlM_addProperty_eq_ok_iff List.nodup_nil

/-- The loop over lines fails with a key that comes twice. -/
theorem exists_duplicate_of_foldlM {lines : List Str} {values : Dict Str Str} {failure : Failure}
    (h : lines.foldlM addProperty values = .error failure) :
    ∃ key, failure = duplicateProperty key ∧
      2 ≤ (Dict.keys (values ++ lines.filterMap propertyOf)).count key := by
  induction lines generalizing values with
  | nil => cases h
  | cons line lines ih =>
    rw [List.foldlM_cons, addProperty] at h
    cases hproperty : propertyOf line with
    | none =>
      rw [hproperty] at h
      rw [List.filterMap_cons_none hproperty]
      exact ih h
    | some property =>
      obtain ⟨key, value⟩ := property
      rw [hproperty] at h
      rw [List.filterMap_cons_some hproperty]
      dsimp only at h
      by_cases hkey : key ∈ values.keys
      · rw [if_pos hkey] at h
        refine ⟨key, (Except.error.inj h).symm, ?_⟩
        have hcount := List.count_pos_iff.mpr hkey
        rw [Dict.keys] at hcount ⊢
        rw [List.map_append, List.map_cons, List.count_append, List.count_cons_self]
        omega
      · rw [if_neg hkey] at h
        obtain ⟨found, hfailure, hcount⟩ := ih h
        rw [Python.Dict.set_of_notMem hkey, List.append_assoc, List.singleton_append] at hcount
        exact ⟨found, hfailure, hcount⟩

/-- A line of an output: a property, or another line. -/
inductive OutputLine where
  | property (indent key value : Str)
  | other (text : Str)

/-- The line as it is written. -/
def OutputLine.text : OutputLine → Str
  | property indent key value => indent ++ (key ++ (" = ".toList ++ value))
  | other text => text

/-- The property of a line. -/
def OutputLine.property? : OutputLine → Option (Str × Str)
  | property _ key value => some (key, value)
  | other _ => none

/-- A line that holds what it says. -/
structure OutputLine.WellFormed (line : OutputLine) : Prop where
  unbroken : ∀ c ∈ line.text, isLineBreak c = false
  holds : ∀ key value, line.property? = some (key, value) ↔ IsProperty line.text key value

/-- What is read of a written output is its properties in their order, when their keys are distinct,
and otherwise an error that names a key that comes twice. -/
theorem properties_unlines (lines : List OutputLine) (h : ∀ line ∈ lines, line.WellFormed) :
    let written := lines.filterMap OutputLine.property?
    (properties (unlines (lines.map OutputLine.text)) = .ok written ↔
      (Dict.keys written).Nodup) ∧
      (¬(Dict.keys written).Nodup → ∃ key,
        properties (unlines (lines.map OutputLine.text)) = .error (duplicateProperty key) ∧
          2 ≤ (Dict.keys written).count key) := by
  intro written
  have hsplit : splitLines (unlines (lines.map OutputLine.text)) = lines.map OutputLine.text := by
    refine Python.splitLines_unlines fun text htext => ?_
    obtain ⟨line, hline, rfl⟩ := List.mem_map.mp htext
    exact (h line hline).unbroken
  have hread : (lines.map OutputLine.text).filterMap propertyOf = written := by
    rw [List.filterMap_map]
    refine List.filterMap_congr fun line hline => Option.ext fun property => ?_
    obtain ⟨key, value⟩ := property
    exact (propertyOf_eq_some_iff.trans ((h line hline).holds key value).symm)
  have hok (values : Dict Str Str) :
      properties (unlines (lines.map OutputLine.text)) = .ok values ↔
        values = written ∧ values.keys.Nodup := by
    rw [properties_eq_ok_iff, hsplit, hread]
  refine ⟨(hok written).trans (and_iff_right rfl), fun hduplicate => ?_⟩
  cases hresult : properties (unlines (lines.map OutputLine.text)) with
  | ok values =>
    obtain ⟨rfl, hnodup⟩ := (hok values).mp hresult
    exact absurd hnodup hduplicate
  | error failure =>
    rw [properties, hsplit] at hresult
    obtain ⟨key, rfl, hcount⟩ := exists_duplicate_of_foldlM hresult
    rw [List.nil_append, hread] at hcount
    exact ⟨key, rfl, hcount⟩

/-- A line is well formed when it is read as what it says. -/
theorem OutputLine.wellFormed_of_propertyOf {line : OutputLine}
    (hunbroken : ∀ c ∈ line.text, isLineBreak c = false)
    (hread : propertyOf line.text = line.property?) : line.WellFormed :=
  ⟨hunbroken, fun _ _ => hread ▸ propertyOf_eq_some_iff⟩

/-- A title. -/
def titleLine : OutputLine := .other ['s', ':']

/-- A property. -/
def homeLine : OutputLine := .property [' ', ' '] ['k', '.', 'h'] ['/', 'o']

/-- The two lines are what they say. -/
theorem wellFormed_homeOutput {line : OutputLine} (h : line = titleLine ∨ line = homeLine) :
    line.WellFormed := by
  rcases h with rfl | rfl
  · exact OutputLine.wellFormed_of_propertyOf (forall_mem_of_all rfl) (propertyOf_eq_none rfl _)
  · exact OutputLine.wellFormed_of_propertyOf (forall_mem_of_all rfl)
      (propertyOf_eq_some_iff.mpr ⟨List.cons_ne_nil _ _, forall_mem_of_all rfl,
        forall_mem_of_all rfl, _, List.cons_ne_nil _ _, forall_mem_of_all rfl, rfl⟩)

/-- The property is read, and when it is written twice its key is named. -/
theorem properties_unlines_homeOutput :
    properties (unlines ([titleLine, homeLine].map OutputLine.text)) =
        .ok [(['k', '.', 'h'], ['/', 'o'])] ∧
      properties (unlines ([homeLine, titleLine, homeLine].map OutputLine.text)) =
        .error (duplicateProperty ['k', '.', 'h']) := by
  have hone := properties_unlines [titleLine, homeLine] fun line hline =>
    wellFormed_homeOutput (List.mem_pair.mp hline)
  have hlines : ∀ line ∈ [homeLine, titleLine, homeLine], line.WellFormed := fun line hline => by
    refine wellFormed_homeOutput ?_
    simp only [List.mem_cons, List.not_mem_nil, or_false] at hline
    rcases hline with rfl | rfl | rfl
    · exact .inr rfl
    · exact .inl rfl
    · exact .inr rfl
  obtain ⟨-, htwice⟩ := properties_unlines [homeLine, titleLine, homeLine] hlines
  have hkeys : Dict.keys ([homeLine, titleLine, homeLine].filterMap OutputLine.property?) =
      [['k', '.', 'h'], ['k', '.', 'h']] := rfl
  refine ⟨hone.1.mpr (List.nodup_singleton _), ?_⟩
  rw [hkeys] at htwice
  obtain ⟨key, hfailure, hcount⟩ := htwice (by simp)
  have hmem : key ∈ [['k', '.', 'h'], ['k', '.', 'h']] := by
    rw [← List.count_pos_iff]
    omega
  rw [hfailure, List.mem_pair.mp hmem |>.elim id id]

end RealityCore.Toolchain
