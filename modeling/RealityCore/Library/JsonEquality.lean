import RealityCore.Library.Json

/-!
# Values that are equal under Python

Texts, lists of such values and objects of such values are equal to themselves only, but for the
order of the members of an object. A number is equal to all numbers of its value.
-/

namespace Python

namespace Json

/-- A value that no other value is equal to. -/
def IsRigid (value : Json) : Prop := ∀ other, same other value = true → other = value

/-- The value one: a truth value, an integer or a float. -/
def IsOne (value : Json) : Prop := numeric value = some (Number.ofInt 1)

/-- A text is equal to itself only. -/
theorem isRigid_str (text : Text) : IsRigid (.str text) := by
  intro other h
  cases other with
  | str value => rw [eq_of_beq h]
  | _ => cases h

/-- A value that a text is equal to is that text. -/
theorem eq_of_same_str {text : Text} {other : Json} (h : same (.str text) other = true) :
    other = .str text := by
  cases other with
  | str value => rw [eq_of_beq h]
  | _ => cases h

/-- Values that are equal outside of containers are equal in them. -/
theorem same_of_equal {value other : Json} (h : equal value other = true) :
    same value other = true :=
  (Bool.and_eq_true _ _ ▸ h).2

/-- The empty list is equal to itself only. -/
theorem isRigid_nil : IsRigid (.list []) := by
  intro other h
  cases other with
  | list items =>
    cases items with
    | nil => rfl
    | cons item items => cases h
  | _ => cases h

/-- A value is equal to an integer when it is a number of that value. -/
theorem same_int_iff {value : Json} {n : ℤ} :
    same value (.int n) = true ↔ numeric value = some (Number.ofInt n) := by
  have hany : same value (.int n) =
      (numeric value).any fun number => numeric (.int n) == some number := by
    cases value <;> rfl
  rw [hany, Option.any_eq_true]
  constructor
  · rintro ⟨number, hnumber, heq⟩
    rw [hnumber]
    exact (eq_of_beq heq).symm
  · intro h
    exact ⟨Number.ofInt n, h, beq_self_eq_true _⟩

/-- A value is equal to the integer one when it is a number of that value. -/
theorem same_one_iff {value : Json} : same value (.int 1) = true ↔ IsOne value := same_int_iff

/-- Integers with the same number are the same. -/
theorem ofInt_injective : Function.Injective Number.ofInt := by
  intro value other h
  exact congrArg Rat.num (Number.finite.inj h)

/-- Integers are equal when they are the same. -/
theorem same_int_int_iff {value other : ℤ} :
    same (.int value) (.int other) = true ↔ value = other := by
  rw [same_int_iff, numeric, Option.some_inj, ofInt_injective.eq_iff]

/-- Truth values are equal when they are the same. -/
theorem same_bool_bool_iff {value other : Bool} :
    same (.bool value) (.bool other) = true ↔ value = other := by
  cases value <;> cases other <;> decide

/-- An exact value is identical to the values of its type that are equal to it. -/
theorem equal_and_type_iff {value other : Json} (h : other.isExact = true) :
    value.equal other = true ∧ value.type = other.type ↔ value = other := by
  constructor
  · rintro ⟨hequal, htype⟩
    have hsame := same_of_equal hequal
    cases other with
    | bool other =>
      cases value with
      | bool value => rw [same_bool_bool_iff.mp hsame]
      | _ => cases htype
    | int other =>
      cases value with
      | int value => rw [same_int_int_iff.mp hsame]
      | _ => cases htype
    | str other =>
      cases value with
      | str value => rw [eq_of_beq hsame]
      | _ => cases htype
    | _ => cases h
  · rintro rfl
    refine ⟨?_, rfl⟩
    cases value with
    | bool value => exact Bool.and_eq_true _ _ ▸ ⟨decide_eq_true nofun, same_bool_bool_iff.mpr rfl⟩
    | int value => exact Bool.and_eq_true _ _ ▸ ⟨decide_eq_true nofun, same_int_int_iff.mpr rfl⟩
    | str value => exact Bool.and_eq_true _ _ ▸ ⟨decide_eq_true nofun, beq_self_eq_true value⟩
    | _ => cases h

/-- The float with the value one. -/
def floatOne : PyFloat := ⟨Number.ofInt 1, "1.0".toList, fun _ => rfl⟩

/-- The only values that are one. -/
theorem isOne_iff {value : Json} :
    IsOne value ↔ value ∈ [.int 1, .bool true, .float floatOne] := by
  simp only [List.mem_cons, List.not_mem_nil, or_false]
  constructor
  · intro h
    cases value with
    | bool value =>
      cases value with
      | true => exact .inr (.inl rfl)
      | false => exact absurd (ofInt_injective (Option.some.inj h)) (by decide)
    | int value => exact .inl (congrArg Json.int (ofInt_injective (Option.some.inj h)))
    | float value =>
      obtain ⟨number, repr, hrepr⟩ := value
      obtain rfl : number = Number.ofInt 1 := Option.some.inj h
      obtain rfl := hrepr rfl
      exact .inr (.inr rfl)
    | _ => cases h
  · rintro (rfl | rfl | rfl) <;> rfl

/-- Each member has an equal one under its key. -/
theorem sameMembers_iff {members others : List (Text × Json)} :
    sameMembers members others = true ↔ ∀ member ∈ members, ∃ other,
      Dict.get? others member.1 = some other ∧ same member.2 other = true := by
  induction members with
  | nil => simp [sameMembers]
  | cons member rest ih =>
    obtain ⟨key, value⟩ := member
    rw [sameMembers, Bool.and_eq_true, List.forall_mem_cons, ih]
    cases hget : Dict.get? others key with
    | none => simp
    | some other => simp

/-- Objects are equal when they have equally many members, each with an equal one. -/
theorem same_object_iff {members others : List (Text × Json)} :
    same (.object members) (.object others) = true ↔ members.length = others.length ∧
      ∀ member ∈ members, ∃ other,
        Dict.get? others member.1 = some other ∧ same member.2 other = true := by
  change (members.length == others.length && sameMembers members others) = true ↔ _
  rw [Bool.and_eq_true, beq_iff_eq, sameMembers_iff]

/-- An object is equal to an object of rigid values when it has the same members. -/
theorem perm_of_same {members others : List (Text × Json)} (hnodup : (Dict.keys members).Nodup)
    (hrigid : ∀ other ∈ others, IsRigid other.2)
    (h : same (.object members) (.object others) = true) : members.Perm others := by
  rw [same_object_iff] at h
  refine Dict.perm_of_get? hnodup h.1 fun member hmember => ?_
  obtain ⟨other, hget, hsame⟩ := h.2 member hmember
  rw [hget, hrigid _ (Dict.mem_of_get? hget) _ hsame]

/-- An object with one rigid value is equal to itself only. -/
theorem isRigid_singleton {key : Text} {value : Json} (h : IsRigid value) :
    IsRigid (.object [(key, value)]) := by
  intro other hsame
  cases other with
  | object members =>
    rw [same_object_iff] at hsame
    obtain ⟨member, rfl⟩ := List.length_eq_one_iff.mp hsame.1
    obtain ⟨found, hget, hfound⟩ := hsame.2 member (List.mem_singleton_self member)
    obtain ⟨hkey, rfl⟩ := Prod.mk.inj (List.mem_singleton.mp (Dict.mem_of_get? hget))
    rw [← hkey, ← h _ hfound]
  | _ => cases hsame

/-- An object is equal to an object of rigid values, but for one key, when it has the same members,
but for an equal value under that key. -/
theorem perm_of_same_but (key : Text) {members others : List (Text × Json)}
    (hnodup : (Dict.keys members).Nodup)
    (hrigid : ∀ other ∈ others, other.1 ≠ key → IsRigid other.2)
    (h : same (.object members) (.object others) = true) :
    ∃ value, members.Perm (others.map fun other =>
        (other.1, if other.1 = key then value else other.2)) ∧
      ∀ expected, Dict.get? others key = some expected → same value expected = true := by
  rw [same_object_iff] at h
  obtain ⟨hlength, hmembers⟩ := h
  set value := (Dict.get? members key).getD .null with hvalue
  have hperm : members.Perm (others.map fun other =>
      (other.1, if other.1 = key then value else other.2)) := by
    refine Dict.perm_of_get? hnodup (by rw [hlength, List.length_map]) fun member hmember => ?_
    obtain ⟨other, hget, hsame⟩ := hmembers member hmember
    rw [Dict.get?_mapValues (fun k held => if k = key then value else held), hget]
    by_cases hkey : member.1 = key
    · have hfound : Dict.get? members key = some member.2 :=
        (Dict.lookup_eq_some_iff hnodup).mpr (hkey ▸ hmember)
      rw [Option.map_some, if_pos hkey, hvalue, hfound, Option.getD_some]
    · rw [Option.map_some, if_neg hkey, hrigid _ (Dict.mem_of_get? hget) hkey _ hsame]
  refine ⟨value, hperm, fun expected hexpected => ?_⟩
  have hmember : (key, value) ∈ members :=
    hperm.mem_iff.mpr (List.mem_map.mpr ⟨_, Dict.mem_of_get? hexpected, by simp⟩)
  obtain ⟨other, hother, hsame⟩ := hmembers _ hmember
  rwa [Option.some.inj (hexpected.symm.trans hother)]

/-- A value equal to a text is the text. -/
theorem same_str_iff {value : Json} {text : Text} :
    same value (.str text) = true ↔ value = .str text := by
  refine ⟨isRigid_str text value, ?_⟩
  rintro rfl
  exact beq_self_eq_true text

/-- A value equal to an object is an object. -/
theorem object_of_same {value : Json} {others : List (Text × Json)}
    (h : same value (.object others) = true) : ∃ members, value = .object members := by
  cases value with
  | object members => exact ⟨members, rfl⟩
  | _ => cases h

/-- A value equal to a list of one value is a list of one value equal to it. -/
theorem singleton_of_same {value expected : Json} (h : same value (.list [expected]) = true) :
    ∃ item, value = .list [item] ∧ same item expected = true := by
  cases value with
  | list items =>
    cases items with
    | nil => cases h
    | cons item items =>
      obtain ⟨hitem, hitems⟩ := Bool.and_eq_true _ _ ▸ h
      cases items with
      | nil => exact ⟨item, rfl, hitem⟩
      | cons next items => cases hitems
  | _ => cases h

/-- A value in an object with distinct keys everywhere has distinct keys. -/
theorem distinctKeys_of_get? {members : List (Text × Json)} {key : Text} {value : Json}
    (h : membersDistinct members = true) (hget : Dict.get? members key = some value) :
    distinctKeys value = true := by
  induction members with
  | nil => cases hget
  | cons member rest ih =>
    rw [membersDistinct, Bool.and_eq_true] at h
    rw [Dict.get?_cons] at hget
    split at hget
    · exact Option.some.inj hget ▸ h.1
    · exact ih h.2 hget

/-- A value in a list with distinct keys everywhere has distinct keys. -/
theorem distinctKeys_of_mem {items : List Json} {value : Json} (h : itemsDistinct items = true)
    (hmem : value ∈ items) : distinctKeys value = true := by
  induction items with
  | nil => cases hmem
  | cons item rest ih =>
    rw [itemsDistinct, Bool.and_eq_true] at h
    rcases List.mem_cons.mp hmem with rfl | hrest
    · exact h.1
    · exact ih h.2 hrest

mutual

/-- A value with distinct keys is equal to itself. -/
theorem same_self {value : Json} (h : distinctKeys value = true) : same value value = true := by
  cases value with
  | object members =>
    rw [distinctKeys, Bool.and_eq_true] at h
    refine same_object_iff.mpr ⟨rfl, fun member hmember => ?_⟩
    exact ⟨member.2, (Dict.lookup_eq_some_iff (of_decide_eq_true h.1)).mpr hmember,
      membersSame_self h.2 member hmember⟩
  | list items => exact itemsSame_self h
  | str text => exact beq_self_eq_true text
  | null => rfl
  | bool value => exact beq_self_eq_true (some _)
  | int value => exact beq_self_eq_true (some _)
  | float value => exact beq_self_eq_true (some _)

/-- The values of members with distinct keys are equal to themselves. -/
theorem membersSame_self {members : List (Text × Json)} (h : membersDistinct members = true) :
    ∀ member ∈ members, same member.2 member.2 = true := by
  cases members with
  | nil => exact nofun
  | cons member rest =>
    rw [membersDistinct, Bool.and_eq_true] at h
    exact List.forall_mem_cons.mpr ⟨same_self h.1, membersSame_self h.2⟩

/-- Items with distinct keys are equal to themselves. -/
theorem itemsSame_self {items : List Json} (h : itemsDistinct items = true) :
    sameItems items items = true := by
  cases items with
  | nil => rfl
  | cons item rest =>
    rw [itemsDistinct, Bool.and_eq_true] at h
    rw [sameItems, same_self h.1, itemsSame_self h.2]
    rfl

end

/-- Objects with the same distinct keys in the same order are equal when their values are. -/
theorem sameMembers_iff_forall₂ {members others : List (Text × Json)}
    (hkeys : Dict.keys members = Dict.keys others) (hnodup : (Dict.keys others).Nodup) :
    sameMembers members others = true ↔ List.Forall₂ (fun member other =>
      member.1 = other.1 ∧ same member.2 other.2 = true) members others := by
  rw [sameMembers_iff]
  induction others generalizing members with
  | nil =>
    rw [List.map_eq_nil_iff.mp hkeys]
    simp
  | cons other others ih =>
    obtain ⟨member, members, rfl, hkey, hrest⟩ := List.map_eq_cons_iff.mp hkeys
    obtain ⟨hnew, hnodup⟩ := List.nodup_cons.mp hnodup
    have hlater (later : Text × Json) (hlater : later ∈ members) :
        Dict.get? (other :: others) later.1 = Dict.get? others later.1 := by
      have hmember : later.1 ∈ Dict.keys others := by
        rw [Dict.keys, ← hrest]
        exact List.mem_map_of_mem hlater
      rw [Dict.get?_cons, if_neg fun heq : later.1 = other.1 => hnew (heq ▸ hmember)]
    rw [List.forall₂_cons, ← ih hrest hnodup, List.forall_mem_cons, Dict.get?_cons, if_pos hkey]
    refine and_congr ?_ (forall₂_congr fun later hmember => by rw [hlater later hmember])
    simp [hkey]

end Json

end Python
