import RealityCore.Library.JsonEquality
import RealityCore.Library.Outcome

/-!
# Trees that are exactly as expected

The comparison of any two values goes by the kind of the expected one: keys in their order, items
one by one, and scalars that are equal and of one type. Two trees pass it exactly when they are
identical.
-/

namespace RealityCore.Workflow.Any

open Outcome (bind_eq_ok_iff bind_eq_error_iff guard_eq_ok_iff)
open Python (CodePoint Dict Json Text points)

/-- How the comparison raises. -/
inductive Failure where
  | workflowError (message : Text)
  | keyError (key : Text)
  deriving DecidableEq

/-- `raise WorkflowError(f"{path} {problem}")` -/
def rejectAt (path : Text) (problem : String) : Except Failure Unit :=
  .error (.workflowError (path ++ points " " ++ points problem))

/-- `f"{path}.{key}"` -/
def atKey (path key : Text) : Text := path ++ points "." ++ key

/-- `f"{path}[{index}]"` -/
def atIndex (path : Text) (index : ℕ) : Text :=
  path ++ points "[" ++ (Nat.toDigits 10 index).map CodePoint.ofChar ++ points "]"

mutual

/-- `_assert_exact(expected, actual, path)` -/
def assertExact : Json → Json → Text → Except Failure Unit
  | .object expected, actual, path =>
    match actual with
    | .object actual =>
      if Dict.keys actual ≠ Dict.keys expected then rejectAt path "keys/order changed"
      else assertMembers expected actual path
    | _ => rejectAt path "keys/order changed"
  | .list expected, actual, path =>
    match actual with
    | .list actual =>
      if actual.length ≠ expected.length then rejectAt path "list length changed"
      else assertItems expected actual path 0
    | _ => rejectAt path "list length changed"
  | expected, actual, path =>
    if ¬actual.equal expected ∨ actual.type ≠ expected.type then rejectAt path "value changed"
    else .ok ()

/-- The loop over the keys of an expected dictionary. -/
def assertMembers : List (Text × Json) → Dict Text Json → Text → Except Failure Unit
  | [], _, _ => .ok ()
  | (key, expected) :: rest, actual, path =>
    match Dict.get? actual key with
    | none => .error (.keyError key)
    | some value => do
      assertExact expected value (atKey path key)
      assertMembers rest actual path

/-- The loop over the pairs of items of an expected and an actual list, which ends with the
shorter one. -/
def assertItems : List Json → List Json → Text → ℕ → Except Failure Unit
  | expected :: rest, actual :: others, path, index => do
    assertExact expected actual (atIndex path index)
    assertItems rest others path (index + 1)
  | _, _, _, _ => .ok ()

end

/-- A scalar is compared by its value and its type. -/
theorem assertExact_of_isExact {expected : Json} (h : expected.isExact = true) (actual : Json)
    (path : Text) : assertExact expected actual path =
      if ¬actual.equal expected ∨ actual.type ≠ expected.type then rejectAt path "value changed"
      else .ok () := by
  cases expected with
  | bool _ | int _ | str _ => rfl
  | _ => cases h

/-- Only the scalar itself passes the comparison with it. -/
theorem assertScalar_eq_ok_iff {expected : Json} (h : expected.isExact = true) (actual : Json)
    (path : Text) : assertExact expected actual path = .ok () ↔ actual = expected := by
  rw [assertExact_of_isExact h, rejectAt, guard_eq_ok_iff, not_or, not_not, not_not,
    Json.equal_and_type_iff h]
  exact and_iff_left rfl

mutual

/-- Only the tree itself passes the comparison with it. -/
theorem assertExact_eq_ok_iff {expected : Json} (htree : expected.isTree = true) (actual : Json)
    (path : Text) : assertExact expected actual path = .ok () ↔ actual = expected := by
  cases expected with
  | object expected =>
    rw [Json.isTree, Bool.and_eq_true, decide_eq_true_eq] at htree
    cases actual with
    | object actual =>
      rw [assertExact, rejectAt, guard_eq_ok_iff, not_not,
        assertMembers_eq_ok_iff htree.2 actual path, Dict.eq_iff_get? htree.1, Json.object.injEq]
    | _ => simp [assertExact, rejectAt]
  | list expected =>
    cases actual with
    | list actual =>
      rw [assertExact, rejectAt, guard_eq_ok_iff, not_not,
        assertItems_eq_ok_iff (by exact htree) actual path 0, Json.list.injEq]
    | _ => simp [assertExact, rejectAt]
  | bool _ | int _ | str _ | null | float _ =>
    exact assertScalar_eq_ok_iff (by exact htree) actual path

/-- The loop over the keys passes when under each of them stands the expected tree. -/
theorem assertMembers_eq_ok_iff {expected : List (Text × Json)}
    (htree : Json.membersTrees expected = true) (actual : Dict Text Json) (path : Text) :
    assertMembers expected actual path = .ok () ↔
      ∀ member ∈ expected, Dict.get? actual member.1 = some member.2 := by
  cases expected with
  | nil => simp [assertMembers]
  | cons member rest =>
    rw [Json.membersTrees, Bool.and_eq_true] at htree
    rw [assertMembers, List.forall_mem_cons]
    cases hget : Dict.get? actual member.1 with
    | none => simp
    | some value =>
      rw [bind_eq_ok_iff, Option.some_inj, ← assertMembers_eq_ok_iff htree.2 actual path,
        ← assertExact_eq_ok_iff htree.1 value (atKey path member.1)]
      exact ⟨fun ⟨_, hvalue, hrest⟩ => ⟨hvalue, hrest⟩, fun ⟨hvalue, hrest⟩ => ⟨_, hvalue, hrest⟩⟩

/-- The loop over the items of a list of the expected length passes when it has the expected
trees. -/
theorem assertItems_eq_ok_iff {expected : List Json} (htree : Json.itemsTrees expected = true)
    (actual : List Json) (path : Text) (index : ℕ) :
    actual.length = expected.length ∧ assertItems expected actual path index = .ok () ↔
      actual = expected := by
  cases expected with
  | nil => simp [assertItems]
  | cons item rest =>
    rw [Json.itemsTrees, Bool.and_eq_true] at htree
    cases actual with
    | nil => simp
    | cons other others =>
      rw [assertItems, bind_eq_ok_iff, List.length_cons, List.length_cons, Nat.add_right_cancel_iff,
        List.cons.injEq, ← assertItems_eq_ok_iff htree.2 others path (index + 1),
        ← assertExact_eq_ok_iff htree.1 other (atIndex path index)]
      exact ⟨fun ⟨hlength, _, hitem, hrest⟩ => ⟨hitem, hlength, hrest⟩,
        fun ⟨hitem, hlength, hrest⟩ => ⟨hlength, _, hitem, hrest⟩⟩

end

/-- Nested dictionaries with distinct keys and lists of texts, truth values and integers. -/
@[ext] structure Tree where
  value : Json
  isTree : value.isTree = true

/-- Two trees pass the comparison exactly when they are identical. -/
theorem assertExact_iff_identical (expected actual : Tree) (path : Text) :
    assertExact expected.value actual.value path = .ok () ↔ actual = expected := by
  rw [assertExact_eq_ok_iff expected.isTree, Tree.ext_iff]

-- the truth value is equal to the integer, but of another type
example : assertExact (.list [.int 1]) (.list [.bool true]) (points "workflow") =
    .error (.workflowError (points "workflow[0] value changed")) := by decide

/-! ## How the comparison fails -/

/-- A failure that names a place at or below a path. -/
def Failure.Names (path : Text) (failure : Failure) : Prop :=
  ∃ message, failure = .workflowError message ∧ path <+: message

/-- A rejection names its path. -/
theorem names_of_rejectAt {path : Text} {problem : String} {failure : Failure}
    (h : rejectAt path problem = .error failure) : failure.Names path :=
  ⟨_, (Except.error.inj h).symm, (List.prefix_append _ _).trans (List.prefix_append _ _)⟩

/-- A place below a path is named with the path in front. -/
theorem Failure.Names.above {path below : Text} {failure : Failure} (h : failure.Names below)
    (hbelow : path <+: below) : failure.Names path := by
  obtain ⟨message, rfl, hmessage⟩ := h
  exact ⟨message, rfl, hbelow.trans hmessage⟩

/-- A member is below its dictionary. -/
theorem prefix_atKey (path key : Text) : path <+: atKey path key :=
  (List.prefix_append _ _).trans (List.prefix_append _ _)

/-- An item is below its list. -/
theorem prefix_atIndex (path : Text) (index : ℕ) : path <+: atIndex path index :=
  ((List.prefix_append _ _).trans (List.prefix_append _ _)).trans (List.prefix_append _ _)

mutual

/-- A comparison that fails names a place in the tree: no key is looked up in vain. -/
theorem assertExact_names {expected actual : Json} {path : Text} {failure : Failure}
    (h : assertExact expected actual path = .error failure) : failure.Names path := by
  cases expected with
  | object expected =>
    cases actual with
    | object actual =>
      rw [assertExact] at h
      by_cases hkeys : Dict.keys actual ≠ Dict.keys expected
      · rw [if_pos hkeys] at h
        exact names_of_rejectAt h
      · rw [if_neg hkeys] at h
        refine assertMembers_names (fun member hmember => ?_) h
        rw [not_not.mp hkeys]
        exact List.mem_map_of_mem hmember
    | _ => exact names_of_rejectAt h
  | list expected =>
    cases actual with
    | list actual =>
      rw [assertExact] at h
      by_cases hlength : actual.length ≠ expected.length
      · rw [if_pos hlength] at h
        exact names_of_rejectAt h
      · rw [if_neg hlength] at h
        exact assertItems_names h
    | _ => exact names_of_rejectAt h
  | bool _ | int _ | str _ | null | float _ =>
    dsimp only [assertExact] at h
    split at h
    · exact names_of_rejectAt h
    · cases h

/-- The loop over keys that are all there fails below the path of the dictionary. -/
theorem assertMembers_names {expected : List (Text × Json)} {actual : Dict Text Json} {path : Text}
    {failure : Failure} (hkeys : ∀ member ∈ expected, member.1 ∈ Dict.keys actual)
    (h : assertMembers expected actual path = .error failure) : failure.Names path := by
  cases expected with
  | nil => cases h
  | cons member rest =>
    obtain ⟨hkey, hkeys⟩ := List.forall_mem_cons.mp hkeys
    obtain ⟨value, hget⟩ := Dict.exists_get? hkey
    rw [assertMembers, hget] at h
    rcases bind_eq_error_iff.mp h with hvalue | ⟨_, -, hrest⟩
    · exact (assertExact_names hvalue).above (prefix_atKey path member.1)
    · exact assertMembers_names hkeys hrest

/-- The loop over items fails below the path of the list. -/
theorem assertItems_names {expected actual : List Json} {path : Text} {index : ℕ}
    {failure : Failure} (h : assertItems expected actual path index = .error failure) :
    failure.Names path := by
  cases expected with
  | nil => cases h
  | cons item rest =>
    cases actual with
    | nil => cases h
    | cons other others =>
      rw [assertItems] at h
      rcases bind_eq_error_iff.mp h with hitem | ⟨_, -, hrest⟩
      · exact (assertExact_names hitem).above (prefix_atIndex path index)
      · exact assertItems_names hrest

end

end RealityCore.Workflow.Any
