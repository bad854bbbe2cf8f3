import RealityCore.Library.PythonDict

/-!
# Java maps and sets

A map is the list of its entries with distinct keys, and a set the list of its distinct members.
Putting a new key and adding a new member append it, as in the linked collections.
-/

namespace Java

open Python (Dict)

/-- A Java map. -/
structure Map (κ ν : Type) where
  entries : Dict κ ν
  nodup : entries.keys.Nodup

/-- A Java set. -/
structure Set (κ : Type) where
  members : List κ
  nodup : members.Nodup

variable {κ ν : Type} [DecidableEq κ]

/-- `map.size()` -/
def Map.size (m : Map κ ν) : ℕ := m.entries.length

/-- `set.size()` -/
def Set.size (s : Set κ) : ℕ := s.members.length

/-- A map without entries. -/
def Map.empty : Map κ ν := ⟨[], List.nodup_nil⟩

/-- A set without members. -/
def Set.empty : Set κ := ⟨[], List.nodup_nil⟩

/-- `map.put(key, value)` -/
def Map.put (m : Map κ ν) (key : κ) (value : ν) : Map κ ν :=
  ⟨m.entries.set key value, Dict.nodup_keys_set m.nodup key value⟩

/-- `set.add(member)` -/
def Set.add (s : Set κ) (member : κ) : Set κ :=
  if h : member ∈ s.members then s else ⟨s.members.concat member, s.nodup.concat h⟩

/-- A new key is put behind the other entries. -/
theorem Map.entries_put {m : Map κ ν} {key : κ} (h : key ∉ m.entries.keys) (value : ν) :
    (m.put key value).entries = m.entries ++ [(key, value)] := Dict.set_of_notMem h value

/-- A new member is added behind the others. -/
theorem Set.members_add {s : Set κ} {member : κ} (h : member ∉ s.members) :
    (s.add member).members = s.members ++ [member] := by
  rw [Set.add, dif_neg h]
  exact List.concat_eq_append

end Java
