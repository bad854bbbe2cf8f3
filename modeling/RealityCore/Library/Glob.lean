import RealityCore.Library.PurePath
import RealityCore.Library.RegexLanguage

/-!
# Globbing a directory

A glob pattern selects the names in a directory. A star stands for any text, and the characters that
are no wildcards stand for themselves.
-/

namespace Python

open Regex (Pattern fullMatch letters wordsOver)

/-- `*` -/
def asterisk : CodePoint := CodePoint.ofChar '*'

/-- What a character of a glob pattern matches. -/
def globItem (c : CodePoint) : Pattern CodePoint :=
  if c = asterisk then .star (.set fun _ => true) else .text [c]

/-- `fnmatch.translate`, for patterns without other wildcards than stars. -/
def globPattern (pattern : Text) : Pattern CodePoint := .concat (pattern.map globItem)

/-- `directory.glob(pattern)`, where the listing gives the names in a directory. -/
def glob (listing : PurePath → List Text) (directory : PurePath) (pattern : Text) :
    List PurePath :=
  ((listing directory).filter (fullMatch (globPattern pattern))).map fun name =>
    directory ++ [name]

/-- The language of a character of a glob pattern. -/
def globLanguage (c : CodePoint) : Language CodePoint := if c = asterisk then ⊤ else {[c]}

/-- A glob pattern spans the product of the languages of its characters. -/
theorem spans_globPattern (pattern : Text) :
    (globPattern pattern).Spans (pattern.map globLanguage).prod := by
  refine Regex.spans_concat ?_
  rw [List.forall₂_map_left_iff, List.forall₂_map_right_iff]
  refine List.forall₂_same.mpr fun c _ => ?_
  by_cases h : c = asterisk
  · rw [globItem, globLanguage, if_pos h, if_pos h]
    have htop : wordsOver (fun _ => true) = (⊤ : Language CodePoint) :=
      Language.ext fun word => ⟨fun _ => trivial, fun _ _ _ => rfl⟩
    exact htop ▸ Regex.spans_star_set fun _ => true
  · rw [globItem, globLanguage, if_neg h, if_neg h]
    exact Regex.spans_text [c]

/-- Two words make one. -/
theorem singleton_mul_singleton (front back : Text) :
    ({front} * {back} : Language CodePoint) = {front ++ back} := by
  refine Language.ext fun word => ?_
  rw [Language.mem_mul]
  constructor
  · rintro ⟨_, rfl, _, rfl, rfl⟩
    rfl
  · rintro rfl
    exact ⟨front, rfl, back, rfl, rfl⟩

/-- Characters that are no wildcards stand for themselves. -/
theorem prod_globLanguage {word : Text} (h : asterisk ∉ word) :
    (word.map globLanguage).prod = {word} := by
  induction word with
  | nil => rfl
  | cons c word ih =>
    obtain ⟨hc, hword⟩ := not_or.mp (List.mem_cons.not.mp h)
    rw [List.map_cons, List.prod_cons, ih hword, globLanguage, if_neg (Ne.symm hc),
      singleton_mul_singleton]
    rfl

/-- A pattern with one star matches what starts and ends as the pattern does. -/
theorem fullMatch_globPattern_iff {front back name : Text} (hfront : asterisk ∉ front)
    (hback : asterisk ∉ back) :
    fullMatch (globPattern (front ++ asterisk :: back)) name = true ↔
      name ∈ ({front} * (⊤ * {back}) : Language CodePoint) := by
  rw [(spans_globPattern _).fullMatch_iff, List.map_append, List.prod_append, List.map_cons,
    List.prod_cons, prod_globLanguage hfront, prod_globLanguage hback, globLanguage, if_pos rfl]

/-- Filtering a listing by a finer test than that of the glob pattern. -/
theorem filter_glob {listing : PurePath → List Text} {directory : PurePath} {pattern : Text}
    {test : Text → Bool}
    (h : ∀ name, test name = true → fullMatch (globPattern pattern) name = true) :
    (glob listing directory pattern).filter (fun path => test path.name) =
      ((listing directory).filter test).map fun name => directory ++ [name] := by
  rw [glob, List.filter_map, List.filter_filter]
  congr 1
  refine List.filter_congr fun name _ => ?_
  rw [Function.comp_apply, PurePath.name_append]
  cases htest : test name with
  | false => rfl
  | true => rw [h name htest]; rfl

end Python
