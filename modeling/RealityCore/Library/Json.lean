import Mathlib.Data.Rat.Init
import RealityCore.Library.CodePoint
import RealityCore.Library.PythonDict

/-!
# JSON documents as Python values

What `json.loads` makes of a document: objects are dictionaries with their members in document
order, and numbers are integers or floats. Python compares numbers of all kinds by their values,
counts truth values among them, and does not look at the order of a dictionary. It compares the
values in a container by identity first, and `json.loads` makes one object for every NaN, so in a
container NaN is equal to itself.
-/

namespace Python

/-- The value of a number. -/
inductive Number where
  | finite (value : ℚ)
  | infinite (negative : Bool)
  | nan
  deriving DecidableEq

/-- The number of an integer. -/
def Number.ofInt (value : ℤ) : Number := .finite (Rat.ofInt value)

/-- A float: its value, and how it is written. The value one is written in one way. -/
structure PyFloat where
  value : Number
  repr : Str
  repr_one : value = Number.ofInt 1 → repr = "1.0".toList

/-- A JSON value. -/
inductive Json where
  | null
  | bool (value : Bool)
  | int (value : ℤ)
  | float (value : PyFloat)
  | str (value : Text)
  | list (items : List Json)
  | object (members : List (Text × Json))

/-- The types of JSON values. -/
inductive PyType where
  | noneType
  | bool
  | int
  | float
  | str
  | list
  | dict
  deriving DecidableEq

namespace Json

/-- `type(value)` -/
def type : Json → PyType
  | .null => .noneType
  | .bool _ => .bool
  | .int _ => .int
  | .float _ => .float
  | .str _ => .str
  | .list _ => .list
  | .object _ => .dict

/-- Truth values, integers and texts. -/
def isExact : Json → Bool
  | .bool _ | .int _ | .str _ => true
  | _ => false

/-- The value as a number. -/
def numeric : Json → Option Number
  | .bool value => some (Number.ofInt (if value then 1 else 0))
  | .int value => some (Number.ofInt value)
  | .float value => some value.value
  | _ => none

mutual

/-- `value == other`, for values in containers. -/
def same : Json → Json → Bool
  | .object members, .object others =>
    members.length == others.length && sameMembers members others
  | .list items, .list others => sameItems items others
  | .str value, .str other => value == other
  | .null, .null => true
  | value, other => (numeric value).any fun number => numeric other == some number

/-- Each member has an equal one under its key. -/
def sameMembers : List (Text × Json) → List (Text × Json) → Bool
  | [], _ => true
  | (key, value) :: rest, others =>
    (match Dict.get? others key with
      | none => false
      | some other => same value other) && sameMembers rest others

/-- The items are equal one by one. -/
def sameItems : List Json → List Json → Bool
  | [], [] => true
  | value :: rest, other :: others => same value other && sameItems rest others
  | _, _ => false

end

/-- `value == other`, where NaN is not equal to itself. -/
def equal (value other : Json) : Bool := decide (numeric value ≠ some .nan) && same value other

mutual

/-- Every dictionary of a value has distinct keys. -/
def distinctKeys : Json → Bool
  | .object members => decide (Dict.keys members).Nodup && membersDistinct members
  | .list items => itemsDistinct items
  | _ => true

/-- Every dictionary in the values of the members has distinct keys. -/
def membersDistinct : List (Text × Json) → Bool
  | [] => true
  | (_, value) :: rest => distinctKeys value && membersDistinct rest

/-- Every dictionary in the items has distinct keys. -/
def itemsDistinct : List Json → Bool
  | [] => true
  | value :: rest => distinctKeys value && itemsDistinct rest

end

mutual

/-- Dictionaries with distinct keys and lists, down to truth values, integers and texts. -/
def isTree : Json → Bool
  | .object members => decide (Dict.keys members).Nodup && membersTrees members
  | .list items => itemsTrees items
  | value => value.isExact

/-- The values of the members are trees. -/
def membersTrees : List (Text × Json) → Bool
  | [] => true
  | (_, value) :: rest => isTree value && membersTrees rest

/-- The items are trees. -/
def itemsTrees : List Json → Bool
  | [] => true
  | value :: rest => isTree value && itemsTrees rest

end

mutual

/-- The values of a document with the keys under which they stand, in document order. A value
in a list has the key of the list. -/
def entries : Text → Json → List (Text × Json)
  | key, .object members => (key, .object members) :: memberEntries members
  | key, .list items => (key, .list items) :: itemEntries key items
  | key, value => [(key, value)]

/-- The values in the members of an object. -/
def memberEntries : List (Text × Json) → List (Text × Json)
  | [] => []
  | (key, value) :: rest => entries key value ++ memberEntries rest

/-- The values in a list under a key. -/
def itemEntries : Text → List Json → List (Text × Json)
  | _, [] => []
  | key, value :: rest => entries key value ++ itemEntries key rest

end

mutual

/-- How deep values are nested in a value. -/
def height : Json → ℕ
  | .object members => memberHeight members
  | .list items => itemHeight items
  | _ => 0

/-- The height above the members of an object. -/
def memberHeight : List (Text × Json) → ℕ
  | [] => 0
  | (_, value) :: rest => max (height value + 1) (memberHeight rest)

/-- The height above the items of a list. -/
def itemHeight : List Json → ℕ
  | [] => 0
  | value :: rest => max (height value + 1) (itemHeight rest)

end

end Json

/-- A JSON object: its members, with distinct keys everywhere. -/
structure JsonObject where
  members : List (Text × Json)
  distinct : (Json.object members).distinctKeys = true

end Python
