import RealityCore.Library.JavaCollections
import RealityCore.Library.JavaText
import RealityCore.Library.Outcome
import RealityCore.Library.Regex

/-!
# Fields of the GUI

Snapshots and deltas carry fields, whose keys have a reviewed form and whose values are short. They
are checked one by one while a map or a set is copied, so a copy holds checked fields only.
-/

namespace RealityCore

open Java (Text Throwable)
open Outcome (bind_eq_ok_iff guard_eq_ok_iff)
open Regex (Pattern fullMatch)

namespace GuiFieldValidation

/-- `[A-Za-z][A-Za-z0-9_.:-]{0,127}` -/
def KEY_FORM : Pattern Char :=
  .seq (.set Char.isAlpha)
    (.many (.set fun c => c.isAlphanum || "_.:-".toList.contains c) 0 (some 127))

/-- A key of a field. -/
abbrev Key := { key : Text // fullMatch KEY_FORM key = true }

/-- A value of a field. -/
abbrev FieldValue := { value : Text // Java.length value ≤ 8192 }

/-- `requireKey`; `none` is `null`. -/
def requireKey : Option Text → Except Throwable Key
  | none => .error (.illegalArgument "GUI field key is invalid".toList)
  | some key =>
    if h : fullMatch KEY_FORM key = true then .ok ⟨key, h⟩
    else .error (.illegalArgument "GUI field key is invalid".toList)

/-- The check of a value in `copyValues`. -/
def requireValue : Option Text → Except Throwable FieldValue
  | none => .error (.illegalArgument "GUI field value is invalid".toList)
  | some value =>
    if h : Java.length value ≤ 8192 then .ok ⟨value, h⟩
    else .error (.illegalArgument "GUI field value is invalid".toList)

/-- One round of the loop in `copyValues`. -/
def copyValue (copy : Java.Map Key FieldValue) (entry : Option Text × Option Text) :
    Except Throwable (Java.Map Key FieldValue) := do
  let key ← requireKey entry.1
  let value ← requireValue entry.2
  pure (copy.put key value)

/-- `copyValues` -/
def copyValues :
    Option (Java.Map (Option Text) (Option Text)) → Except Throwable (Java.Map Key FieldValue)
  | none => .error (.nullPointer "values".toList)
  | some values =>
    if 512 < values.size then
      .error (.illegalArgument "GUI payload supports at most 512 fields".toList)
    else values.entries.foldlM copyValue .empty

/-- One round of the loop in `copyKeys`, with the copy of the key. -/
def copyKey (copy : Java.Set Key) (key : Option Text) : Except Throwable (Java.Set Key) := do
  let key ← requireKey key
  pure (copy.add key)

/-- `copyKeys` -/
def copyKeys : Option (Java.Set (Option Text)) → Except Throwable (Java.Set Key)
  | none => .error (.nullPointer "keys".toList)
  | some keys =>
    if 512 < keys.size then
      .error (.illegalArgument "GUI payload supports at most 512 fields".toList)
    else keys.members.foldlM copyKey .empty

/-- A required key is the given one. -/
theorem requireKey_eq_ok {given : Option Text} {key : Key} (h : requireKey given = .ok key) :
    given = some key.1 := by
  cases given with
  | none => cases h
  | some text =>
    rw [requireKey] at h
    by_cases hform : fullMatch KEY_FORM text = true
    · rw [dif_pos hform] at h
      rw [← Except.ok.inj h]
    · rw [dif_neg hform] at h
      cases h

/-- A required value is the given one. -/
theorem requireValue_eq_ok {given : Option Text} {value : FieldValue}
    (h : requireValue given = .ok value) : given = some value.1 := by
  cases given with
  | none => cases h
  | some text =>
    rw [requireValue] at h
    by_cases hlength : Java.length text ≤ 8192
    · rw [dif_pos hlength] at h
      rw [← Except.ok.inj h]
    · rw [dif_neg hlength] at h
      cases h

/-- The entry of a source map that a field is copied from. -/
def source (field : Key × FieldValue) : Option Text × Option Text :=
  (some field.1.1, some field.2.1)

/-- The loop adds the entries of a map to a copy that holds none of them. -/
theorem foldlM_copyValue_eq_ok {entries : List (Option Text × Option Text)}
    {copy result : Java.Map Key FieldValue}
    (hnodup : ((copy.entries.map source ++ entries).map Prod.fst).Nodup)
    (h : entries.foldlM copyValue copy = .ok result) :
    result.entries.map source = copy.entries.map source ++ entries := by
  induction entries generalizing copy with
  | nil =>
    obtain rfl := Except.ok.inj h
    rw [List.append_nil]
  | cons entry entries ih =>
    rw [List.foldlM_cons] at h
    obtain ⟨between, hround, hrest⟩ := bind_eq_ok_iff.mp h
    obtain ⟨key, hkey, hround⟩ := bind_eq_ok_iff.mp hround
    obtain ⟨value, hvalue, hround⟩ := bind_eq_ok_iff.mp hround
    have hentry : entry = source (key, value) :=
      Prod.ext (requireKey_eq_ok hkey) (requireValue_eq_ok hvalue)
    have hnew : key ∉ copy.entries.keys := by
      intro hmem
      obtain ⟨field, hfield, hfirst⟩ := List.mem_map.mp hmem
      rw [List.map_append, List.nodup_append] at hnodup
      refine hnodup.2.2 _ (List.mem_map_of_mem (List.mem_map_of_mem hfield)) _ (.head _) ?_
      rw [hentry, ← hfirst]
      rfl
    have hcopy : between.entries.map source = copy.entries.map source ++ [entry] := by
      rw [← Except.ok.inj hround, Java.Map.entries_put hnew, List.map_append, hentry]
      rfl
    rw [ih (by rwa [hcopy, List.append_assoc]) hrest, hcopy, List.append_assoc]
    rfl

/-- The loop adds the members of a set to a copy that holds none of them. -/
theorem foldlM_copyKey_eq_ok {members : List (Option Text)} {copy result : Java.Set Key}
    (hnodup : (copy.members.map (fun key => some key.1) ++ members).Nodup)
    (h : members.foldlM copyKey copy = .ok result) :
    result.members.map (fun key => some key.1) =
      copy.members.map (fun key => some key.1) ++ members := by
  induction members generalizing copy with
  | nil =>
    obtain rfl := Except.ok.inj h
    rw [List.append_nil]
  | cons member members ih =>
    rw [List.foldlM_cons] at h
    obtain ⟨between, hround, hrest⟩ := bind_eq_ok_iff.mp h
    obtain ⟨key, hkey, hround⟩ := bind_eq_ok_iff.mp hround
    have hmember : member = some key.1 := requireKey_eq_ok hkey
    have hnew : key ∉ copy.members := by
      intro hmem
      rw [List.nodup_append] at hnodup
      exact hnodup.2.2 _ (List.mem_map_of_mem hmem) _ (.head _) hmember.symm
    have hcopy : between.members.map (fun key => some key.1) =
        copy.members.map (fun key => some key.1) ++ [member] := by
      rw [← Except.ok.inj hround, Java.Set.members_add hnew, List.map_append, hmember]
      rfl
    rw [ih (by rwa [hcopy, List.append_assoc]) hrest, hcopy, List.append_assoc]
    rfl

/-- Copied values are those of the given map. -/
theorem copyValues_eq_ok {given : Option (Java.Map (Option Text) (Option Text))}
    {copy : Java.Map Key FieldValue} (h : copyValues given = .ok copy) :
    ∃ values, given = some values ∧ copy.entries.map source = values.entries := by
  cases given with
  | none => cases h
  | some values =>
    rw [copyValues, guard_eq_ok_iff] at h
    exact ⟨values, rfl, foldlM_copyValue_eq_ok (by exact values.nodup) h.2⟩

/-- Copied keys are those of the given set. -/
theorem copyKeys_eq_ok {given : Option (Java.Set (Option Text))} {copy : Java.Set Key}
    (h : copyKeys given = .ok copy) :
    ∃ keys, given = some keys ∧ copy.members.map (fun key => some key.1) = keys.members := by
  cases given with
  | none => cases h
  | some keys =>
    rw [copyKeys, guard_eq_ok_iff] at h
    exact ⟨keys, rfl, foldlM_copyKey_eq_ok (by exact keys.nodup) h.2⟩

end GuiFieldValidation

end RealityCore
