import RealityCore.Workflow.ExactTrees
import RealityCore.Workflow.Reviewed

/-!
# The exact tree

Parsed values are trees of texts without surrogates and of natural numbers. The comparison of parsed
values ends as that of the trees does, so it accepts the expected value only.
-/

namespace RealityCore.Workflow

open Outcome (Related)
open Python (CodePoint Dict Json Str points)

mutual

/-- Every dictionary of the value has distinct keys. -/
def distinctKeys : Value → Bool
  | .map entries => decide (Dict.keys entries).Nodup && entriesDistinct entries
  | .list items => itemsDistinct items
  | .scalar _ => true

/-- Every dictionary in the values of the entries has distinct keys. -/
def entriesDistinct : List (Str × Value) → Bool
  | [] => true
  | (_, value) :: rest => distinctKeys value && entriesDistinct rest

/-- Every dictionary in the items has distinct keys. -/
def itemsDistinct : List Value → Bool
  | [] => true
  | value :: rest => distinctKeys value && itemsDistinct rest

end

/-! ## Parsed values as trees -/

/-- A scalar as a value of any kind. -/
def Scalar.toJson : Scalar → Json
  | .bool value => .bool value
  | .int value => .int value
  | .str value => .str (value.map CodePoint.ofChar)

mutual

/-- A parsed value as a value of any kind. -/
def Value.toJson : Value → Json
  | .map entries => .object (entriesToJson entries)
  | .list items => .list (itemsToJson items)
  | .scalar value => value.toJson

/-- The items of a parsed dictionary. -/
def entriesToJson : List (Str × Value) → List (Python.Text × Json)
  | [] => []
  | (key, value) :: rest => (key.map CodePoint.ofChar, value.toJson) :: entriesToJson rest

/-- The items of a parsed list. -/
def itemsToJson : List Value → List Json
  | [] => []
  | value :: rest => value.toJson :: itemsToJson rest

end

/-- Texts with the same code points are the same. -/
theorem map_ofChar_inj {text other : Str} :
    text.map CodePoint.ofChar = other.map CodePoint.ofChar ↔ text = other :=
  (List.map_injective_iff.mpr CodePoint.ofChar_injective).eq_iff

/-- Scalars are truth values, integers or texts. -/
theorem Scalar.isExact_toJson (value : Scalar) : value.toJson.isExact = true := by
  cases value <;> rfl

/-- Different scalars are different values. -/
theorem Scalar.toJson_inj {value other : Scalar} : value.toJson = other.toJson ↔ value = other := by
  cases value <;> cases other <;> simp [toJson, map_ofChar_inj]

/-- The keys of a parsed dictionary. -/
theorem keys_entriesToJson (entries : List (Str × Value)) :
    Dict.keys (entriesToJson entries) =
      (Dict.keys entries).map (List.map CodePoint.ofChar) := by
  induction entries with
  | nil => rfl
  | cons entry rest ih => exact congrArg (entry.1.map CodePoint.ofChar :: ·) ih

/-- Parsed dictionaries have the same keys as what they are read as. -/
theorem keys_entriesToJson_inj {entries others : List (Str × Value)} :
    Dict.keys (entriesToJson entries) = Dict.keys (entriesToJson others) ↔
      Dict.keys entries = Dict.keys others := by
  rw [keys_entriesToJson, keys_entriesToJson]
  exact (List.map_injective_iff.mpr
    (List.map_injective_iff.mpr CodePoint.ofChar_injective)).eq_iff

/-- What a parsed dictionary holds under a key. -/
theorem get?_entriesToJson (entries : List (Str × Value)) (key : Str) :
    Dict.get? (entriesToJson entries) (key.map CodePoint.ofChar) =
      (Dict.get? entries key).map Value.toJson := by
  induction entries with
  | nil => rfl
  | cons entry rest ih =>
    rw [entriesToJson, Dict.get?_cons, Dict.get?_cons, ih]
    by_cases hkey : key = entry.1
    · rw [if_pos hkey, if_pos (map_ofChar_inj.mpr hkey), Option.map_some]
    · rw [if_neg hkey, if_neg fun heq => hkey (map_ofChar_inj.mp heq)]

/-- A parsed list has as many items. -/
theorem length_itemsToJson (items : List Value) : (itemsToJson items).length = items.length := by
  induction items with
  | nil => rfl
  | cons item rest ih => rw [itemsToJson, List.length_cons, List.length_cons, ih]

mutual

/-- A parsed value with distinct keys is a tree. -/
theorem isTree_toJson (value : Value) (h : distinctKeys value = true) :
    value.toJson.isTree = true := by
  cases value with
  | map entries =>
    rw [distinctKeys, Bool.and_eq_true, decide_eq_true_eq] at h
    rw [Value.toJson, Json.isTree, membersTrees_entriesToJson entries h.2, Bool.and_true,
      decide_eq_true_eq, keys_entriesToJson]
    exact h.1.map (List.map_injective_iff.mpr CodePoint.ofChar_injective)
  | list items => exact itemsTrees_itemsToJson items h
  | scalar value => cases value <;> rfl

/-- The items of a dictionary with distinct keys are trees. -/
theorem membersTrees_entriesToJson (entries : List (Str × Value))
    (h : entriesDistinct entries = true) : Json.membersTrees (entriesToJson entries) = true := by
  cases entries with
  | nil => rfl
  | cons entry rest =>
    rw [entriesDistinct, Bool.and_eq_true] at h
    rw [entriesToJson, Json.membersTrees, isTree_toJson entry.2 h.1, Bool.true_and]
    exact membersTrees_entriesToJson rest h.2

/-- The items of a list with distinct keys are trees. -/
theorem itemsTrees_itemsToJson (items : List Value) (h : itemsDistinct items = true) :
    Json.itemsTrees (itemsToJson items) = true := by
  cases items with
  | nil => rfl
  | cons item rest =>
    rw [itemsDistinct, Bool.and_eq_true] at h
    rw [itemsToJson, Json.itemsTrees, isTree_toJson item h.1, Bool.true_and]
    exact itemsTrees_itemsToJson rest h.2

end

mutual

/-- Different parsed values are different trees. -/
theorem eq_of_toJson_eq (value other : Value) (h : value.toJson = other.toJson) :
    value = other := by
  match value, other with
  | .map entries, .map others =>
    rw [eq_of_entriesToJson_eq entries others (Json.object.inj h)]
  | .list items, .list others => rw [eq_of_itemsToJson_eq items others (Json.list.inj h)]
  | .scalar value, .scalar other => rw [Scalar.toJson_inj.mp h]
  | .map _, .list _ | .list _, .map _ => cases h
  | .map _, .scalar other | .list _, .scalar other => cases other <;> cases h
  | .scalar value, .map _ | .scalar value, .list _ => cases value <;> cases h

/-- Different parsed dictionaries have different items. -/
theorem eq_of_entriesToJson_eq (entries others : List (Str × Value))
    (h : entriesToJson entries = entriesToJson others) : entries = others := by
  match entries, others with
  | [], [] => rfl
  | (key, value) :: rest, (otherKey, other) :: others =>
    obtain ⟨hentry, hrest⟩ := List.cons.inj h
    obtain ⟨hkey, hvalue⟩ := Prod.mk.inj hentry
    rw [map_ofChar_inj.mp hkey, eq_of_toJson_eq value other hvalue,
      eq_of_entriesToJson_eq rest others hrest]
  | [], _ :: _ | _ :: _, [] => cases h

/-- Different parsed lists have different items. -/
theorem eq_of_itemsToJson_eq (items others : List Value)
    (h : itemsToJson items = itemsToJson others) : items = others := by
  match items, others with
  | [], [] => rfl
  | item :: rest, other :: others =>
    obtain ⟨hitem, hrest⟩ := List.cons.inj h
    rw [eq_of_toJson_eq item other hitem, eq_of_itemsToJson_eq rest others hrest]
  | [], _ :: _ | _ :: _, [] => cases h

end

/-! ## The two comparisons -/

/-- A failure and the same one with its message in code points. -/
inductive ShownAs : Failure → Any.Failure → Prop
  | workflowError (message : Str) :
    ShownAs (.workflowError message) (.workflowError (message.map CodePoint.ofChar))
  | keyError (key : Str) : ShownAs (.keyError key) (.keyError (key.map CodePoint.ofChar))

/-- Comparisons that both pass or raise the same. -/
abbrev Agree : Result Unit → Except Any.Failure Unit → Prop := Related ShownAs (· = ·)

/-- The messages of a rejection are the same. -/
theorem shownAs_rejectAt (path : Str) (problem : String) :
    ShownAs (.workflowError (path ++ ' ' :: problem.toList)) (.workflowError
      (path.map CodePoint.ofChar ++ points " " ++ points problem)) := by
  have hmessage : path.map CodePoint.ofChar ++ points " " ++ points problem =
      (path ++ ' ' :: problem.toList).map CodePoint.ofChar := by
    rw [List.map_append, List.append_assoc]
    rfl
  rw [hmessage]
  exact .workflowError _

/-- Rejections of the same place agree. -/
theorem agree_rejectAt (path : Str) (problem : String) :
    Agree (rejectAt path problem) (Any.rejectAt (path.map CodePoint.ofChar) problem) :=
  .error (shownAs_rejectAt path problem)

/-- The place of a value in a dictionary. -/
theorem atKey_map_ofChar (path key : Str) :
    Any.atKey (path.map CodePoint.ofChar) (key.map CodePoint.ofChar) =
      (path ++ '.' :: key).map CodePoint.ofChar := by
  rw [Any.atKey, List.map_append, List.append_assoc]
  rfl

/-- The place of an item in a list. -/
theorem atIndex_map_ofChar (path : Str) (index : ℕ) :
    Any.atIndex (path.map CodePoint.ofChar) index =
      (path ++ '[' :: (Nat.toDigits 10 index ++ [']'])).map CodePoint.ofChar := by
  rw [Any.atIndex, List.map_append, List.map_cons, List.map_append, List.append_assoc,
    List.append_assoc]
  rfl

mutual

/-- The comparison of parsed values ends as that of the trees. -/
theorem agree_assertExact (expected actual : Value) (path : Str) :
    Agree (assertExact expected actual path)
      (Any.assertExact expected.toJson actual.toJson (path.map CodePoint.ofChar)) := by
  match expected, actual with
  | .map expected, .map actual =>
    rw [assertExact, Value.toJson, Value.toJson, Any.assertExact]
    exact .guard (not_congr keys_entriesToJson_inj.symm) (shownAs_rejectAt path _)
      (agree_assertEntries expected actual path)
  | .list expected, .list actual =>
    rw [assertExact, Value.toJson, Value.toJson, Any.assertExact, length_itemsToJson,
      length_itemsToJson]
    exact .guard Iff.rfl (shownAs_rejectAt path _) (agree_assertItems expected actual path 0)
  | .scalar expected, .scalar actual =>
    rw [assertExact, Value.toJson, Value.toJson, Any.assertExact_of_isExact expected.isExact_toJson]
    refine .guard ?_ (shownAs_rejectAt path _) (.ok rfl)
    rw [← not_and_or, Json.equal_and_type_iff expected.isExact_toJson, Scalar.toJson_inj]
  | .map _, .list _ | .list _, .map _ => exact agree_rejectAt path _
  | .map _, .scalar actual | .list _, .scalar actual =>
    cases actual <;> exact agree_rejectAt path _
  | .scalar expected, .map _ | .scalar expected, .list _ =>
    cases expected <;> exact agree_rejectAt path _

/-- The loops over the keys end in the same way. -/
theorem agree_assertEntries (expected : List (Str × Value)) (actual : Dict Str Value)
    (path : Str) : Agree (assertEntries expected actual path)
      (Any.assertMembers (entriesToJson expected) (entriesToJson actual)
        (path.map CodePoint.ofChar)) := by
  match expected with
  | [] => exact .ok rfl
  | (key, value) :: rest =>
    rw [assertEntries, entriesToJson, Any.assertMembers, get?_entriesToJson]
    cases actual.get? key with
    | none => exact .error (.keyError key)
    | some found =>
      have hvalue := agree_assertExact value found (path ++ '.' :: key)
      rw [← atKey_map_ofChar] at hvalue
      exact hvalue.bind fun _ _ _ => agree_assertEntries rest actual path

/-- The loops over the items end in the same way. -/
theorem agree_assertItems (expected actual : List Value) (path : Str) (index : ℕ) :
    Agree (assertItems expected actual path index)
      (Any.assertItems (itemsToJson expected) (itemsToJson actual) (path.map CodePoint.ofChar)
        index) := by
  match expected, actual with
  | expected :: rest, actual :: others =>
    rw [assertItems, itemsToJson, itemsToJson, Any.assertItems]
    have hitem := agree_assertExact expected actual
      (path ++ '[' :: (Nat.toDigits 10 index ++ [']']))
    rw [← atIndex_map_ofChar] at hitem
    exact hitem.bind fun _ _ _ => agree_assertItems rest others path (index + 1)
  | [], _ | _ :: _, [] => exact .ok rfl

end

/-- Only the expected value passes the comparison. -/
theorem assertExact_eq_ok_iff {expected : Value} (hdistinct : distinctKeys expected = true)
    (actual : Value) (path : Str) :
    assertExact expected actual path = .ok () ↔ actual = expected := by
  rw [(agree_assertExact expected actual path).eq_ok_iff,
    Any.assertExact_eq_ok_iff (isTree_toJson expected hdistinct)]
  exact ⟨eq_of_toJson_eq actual expected, congrArg Value.toJson⟩

end RealityCore.Workflow
