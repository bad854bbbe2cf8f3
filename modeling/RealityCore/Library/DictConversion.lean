import Mathlib.Data.List.Forall2
import RealityCore.Library.JsonEquality
import RealityCore.Library.Outcome

/-!
# Converting a value to a dictionary

`dict(value)` copies a dictionary and takes any other value as a sequence of pairs. A text is a
sequence of texts of one character, and a dictionary one of its keys, so that a pair may be a list,
a text or a dictionary.
-/

namespace Python

open Outcome (map_eq_ok_iff mapM_eq_ok_iff)

/-- What `dict(value)` raises. -/
inductive ConversionError where
  | typeError
  | valueError
  deriving DecidableEq

namespace Json

/-- `list(value)`, with nothing for a value that is not iterable. -/
def elements : Json → Option (List Json)
  | .str text => some (text.map fun p => .str [p])
  | .list items => some items
  | .object members => some ((Dict.keys members).map .str)
  | _ => none

/-- A value that can be a key. -/
def isHashable : Json → Bool
  | .list _ => false
  | .object _ => false
  | _ => true

/-- An item of a sequence of pairs. -/
def pairOf (item : Json) : Except ConversionError (Json × Json) :=
  match elements item with
  | none => .error .typeError
  | some [key, value] => if isHashable key then .ok (key, value) else .error .typeError
  | some _ => .error .valueError

/-- `dictionary[key] = value`, for keys of any kind. -/
def setPair (dictionary : List (Json × Json)) (pair : Json × Json) : List (Json × Json) :=
  if dictionary.any fun held => same held.1 pair.1 then
    dictionary.map fun held => if same held.1 pair.1 then (held.1, pair.2) else held
  else dictionary ++ [pair]

/-- `dict(value)` -/
def dictOf : Json → Except ConversionError (List (Json × Json))
  | .object members => .ok (members.map fun member => (.str member.1, member.2))
  | value =>
    match elements value with
    | none => .error .typeError
    | some items => (items.mapM pairOf).map fun pairs => pairs.foldl setPair []

/-- `value == dictionary`, for keys of any kind. -/
def sameDict : Json → List (Json × Json) → Bool
  | .object members, dictionary =>
    members.length == dictionary.length && members.all fun member =>
      (dictionary.find? fun held => same held.1 (.str member.1)).any fun held =>
        same member.2 held.2
  | _, _ => false

/-- An item that is a pair with a key. -/
def IsPair (item : Json) : Prop :=
  ∃ key value, elements item = some [key, value] ∧ isHashable key = true

/-- A dictionary, an empty text or a list of pairs. -/
def IsConvertible : Json → Prop
  | .object _ => True
  | .str text => text = []
  | .list items => ∀ item ∈ items, IsPair item
  | _ => False

/-- A pair is taken exactly when it is one. -/
theorem exists_pairOf_iff {item : Json} : (∃ pair, pairOf item = .ok pair) ↔ IsPair item := by
  unfold pairOf IsPair
  constructor
  · rintro ⟨pair, h⟩
    split at h
    · cases h
    · next key value helements =>
      by_cases hkey : isHashable key = true
      · exact ⟨key, value, helements, hkey⟩
      · rw [if_neg hkey] at h
        cases h
    · cases h
  · rintro ⟨key, value, helements, hkey⟩
    simp [helements, hkey]

/-- A sequence of pairs is taken exactly when its items are pairs. -/
theorem exists_mapM_pairOf_iff {items : List Json} :
    (∃ pairs, items.mapM pairOf = .ok pairs) ↔ ∀ item ∈ items, IsPair item := by
  simp only [mapM_eq_ok_iff, ← exists_pairOf_iff]
  constructor
  · rintro ⟨pairs, hpairs⟩ item hitem
    obtain ⟨pair, -, hpair⟩ := Outcome.exists_of_forall₂_left hpairs hitem
    exact ⟨pair, hpair⟩
  · intro h
    induction items with
    | nil => exact ⟨[], .nil⟩
    | cons item items ih =>
      obtain ⟨⟨pair, hpair⟩, hrest⟩ := List.forall_mem_cons.mp h
      obtain ⟨pairs, hpairs⟩ := ih hrest
      exact ⟨pair :: pairs, .cons hpair hpairs⟩

/-- A character is no pair. -/
theorem not_isPair_char (p : CodePoint) : ¬IsPair (.str [p]) := by
  rintro ⟨key, value, h, -⟩
  cases h

/-- A value is converted exactly when it is convertible. -/
theorem exists_dictOf_iff {value : Json} :
    (∃ dictionary, dictOf value = .ok dictionary) ↔ IsConvertible value := by
  cases value with
  | object members => exact ⟨fun _ => trivial, fun _ => ⟨_, rfl⟩⟩
  | list items =>
    rw [IsConvertible, ← exists_mapM_pairOf_iff]
    constructor
    · rintro ⟨dictionary, h⟩
      obtain ⟨pairs, hpairs, -⟩ := map_eq_ok_iff.mp h
      exact ⟨pairs, hpairs⟩
    · rintro ⟨pairs, hpairs⟩
      exact ⟨_, map_eq_ok_iff.mpr ⟨pairs, hpairs, rfl⟩⟩
  | str text =>
    rw [IsConvertible]
    constructor
    · rintro ⟨dictionary, h⟩
      obtain ⟨pairs, hpairs, -⟩ := map_eq_ok_iff.mp h
      have hitems := exists_mapM_pairOf_iff.mp ⟨pairs, hpairs⟩
      cases text with
      | nil => rfl
      | cons p text => exact absurd (hitems _ List.mem_cons_self) (not_isPair_char p)
    · rintro rfl
      exact ⟨[], rfl⟩
  | _ => exact ⟨nofun, nofun⟩

/-- A dictionary is equal to its copy. -/
theorem sameDict_self {members : List (Text × Json)}
    (h : distinctKeys (.object members) = true) :
    sameDict (.object members) (members.map fun member => (.str member.1, member.2)) = true := by
  rw [distinctKeys, Bool.and_eq_true] at h
  rw [sameDict, List.length_map, beq_self_eq_true, Bool.true_and, List.all_eq_true]
  intro member hmember
  have hfind : (members.map fun held => (Json.str held.1, held.2)).find?
      (fun held => same held.1 (.str member.1)) = some (.str member.1, member.2) := by
    have hnodup : (Dict.keys members).Nodup := of_decide_eq_true h.1
    obtain ⟨front, back, rfl⟩ := List.append_of_mem hmember
    rw [Dict.keys, List.map_append, List.nodup_append] at hnodup
    refine List.find?_eq_some_iff_append.mpr ⟨beq_self_eq_true member.1, _, _, List.map_append, ?_⟩
    intro held hheld
    obtain ⟨other, hother, rfl⟩ := List.mem_map.mp hheld
    have hne := hnodup.2.2 _ (List.mem_map_of_mem hother) _ List.mem_cons_self
    exact bne_iff_ne.mpr hne
  rw [hfind, Option.any_some]
  exact membersSame_self h.2 member hmember

end Json

end Python
