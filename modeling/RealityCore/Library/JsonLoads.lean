import RealityCore.Library.JsonEquality
import RealityCore.Library.Outcome

/-!
# Reading JSON documents

`json.loads` gives the members of each object to a hook, from the inside out, and what the hook
makes of them stands for the object. A hook that refuses duplicate keys and keeps the other objects
leaves a document as it is.
-/

namespace Python

open Outcome (bind_eq_error_iff bind_eq_ok_iff guard_eq_ok_iff map_eq_ok_iff)

/-- What `json.loads` raises: `JSONDecodeError`, an error of the hook, or another one, for an
integer with too many digits and for a document with too many levels. -/
inductive LoadsError (ε : Type) where
  | decodeError
  | hookError (error : ε)
  | otherError
  deriving DecidableEq

/-- A hook: `object_pairs_hook` -/
abbrev Hook (ε : Type) := List (Text × Json) → Except ε Json

namespace Json

variable {ε : Type}

mutual

/-- A value with the hook applied to its objects. -/
def hooked (hook : Hook ε) : Json → Except ε Json
  | .object members => hookedMembers hook members >>= hook
  | .list items => (hookedItems hook items).map .list
  | value => .ok value

/-- The members of an object with the hook applied in their values. -/
def hookedMembers (hook : Hook ε) : List (Text × Json) → Except ε (List (Text × Json))
  | [] => .ok []
  | (key, value) :: rest => do
    let value ← hooked hook value
    let rest ← hookedMembers hook rest
    .ok ((key, value) :: rest)

/-- The items of a list with the hook applied in them. -/
def hookedItems (hook : Hook ε) : List Json → Except ε (List Json)
  | [] => .ok []
  | value :: rest => do
    let value ← hooked hook value
    let rest ← hookedItems hook rest
    .ok (value :: rest)

end

mutual

/-- What fails in a value is the hook, for the members of one of its objects. -/
theorem exists_hook_of_hooked {hook : Hook ε} {value : Json} {error : ε}
    (h : hooked hook value = .error error) : ∃ members, hook members = .error error := by
  cases value with
  | object members =>
    rw [hooked, bind_eq_error_iff] at h
    rcases h with hmembers | ⟨found, -, hhook⟩
    · exact exists_hook_of_hookedMembers hmembers
    · exact ⟨found, hhook⟩
  | list items =>
    rw [hooked] at h
    cases hitems : hookedItems hook items with
    | error raised =>
      rw [hitems] at h
      exact exists_hook_of_hookedItems (hitems.trans (congrArg Except.error (Except.error.inj h)))
    | ok found =>
      rw [hitems] at h
      cases h
  | _ =>
    rw [hooked] at h
    · cases h
    all_goals nofun

/-- What fails in members is the hook. -/
theorem exists_hook_of_hookedMembers {hook : Hook ε} {members : List (Text × Json)} {error : ε}
    (h : hookedMembers hook members = .error error) : ∃ members, hook members = .error error := by
  cases members with
  | nil => cases h
  | cons member rest =>
    obtain ⟨key, value⟩ := member
    simp only [hookedMembers, bind_eq_error_iff, reduceCtorEq, and_false, exists_false,
      or_false] at h
    rcases h with hvalue | ⟨_, -, hrest⟩
    · exact exists_hook_of_hooked hvalue
    · exact exists_hook_of_hookedMembers hrest

/-- What fails in items is the hook. -/
theorem exists_hook_of_hookedItems {hook : Hook ε} {items : List Json} {error : ε}
    (h : hookedItems hook items = .error error) : ∃ members, hook members = .error error := by
  cases items with
  | nil => cases h
  | cons value rest =>
    simp only [hookedItems, bind_eq_error_iff, reduceCtorEq, and_false, exists_false,
      or_false] at h
    rcases h with hvalue | ⟨_, -, hrest⟩
    · exact exists_hook_of_hooked hvalue
    · exact exists_hook_of_hookedItems hrest

end

/-- One round of the loop over pairs. -/
def addPair (error : ε) (result : List (Text × Json)) (pair : Text × Json) :
    Except ε (List (Text × Json)) :=
  if pair.1 ∈ Dict.keys result then .error error else .ok (Dict.set result pair.1 pair.2)

/-- A dictionary of pairs, but an error for a duplicate key. -/
def ofDistinctPairs (error : ε) : Hook ε := fun pairs =>
  (pairs.foldlM (addPair error) []).map .object

/-- The loop over pairs appends them to a dictionary without their keys. -/
theorem foldlM_addPair {error : ε} {pairs result : List (Text × Json)} (before : List (Text × Json))
    (hbefore : (Dict.keys before).Nodup) (h : pairs.foldlM (addPair error) before = .ok result) :
    result = before ++ pairs ∧ (Dict.keys result).Nodup := by
  induction pairs generalizing before with
  | nil =>
    cases h
    exact ⟨(List.append_nil _).symm, hbefore⟩
  | cons pair pairs ih =>
    rw [List.foldlM_cons, bind_eq_ok_iff] at h
    obtain ⟨between, hround, hrest⟩ := h
    rw [addPair, guard_eq_ok_iff] at hround
    obtain ⟨hnew, hbetween⟩ := hround
    have hnodup := Dict.nodup_keys_set hbefore pair.1 pair.2
    rw [Except.ok.inj hbetween] at hnodup
    obtain ⟨hresult, hkeys⟩ := ih _ hnodup hrest
    rw [← Except.ok.inj hbetween, Dict.set_of_notMem hnew, List.append_assoc] at hresult
    exact ⟨hresult, hkeys⟩

/-- The loop over pairs with new, distinct keys does not fail. -/
theorem foldlM_addPair_of_nodup {error : ε} {pairs : List (Text × Json)}
    (before : List (Text × Json)) (h : (Dict.keys (before ++ pairs)).Nodup) :
    pairs.foldlM (addPair error) before = .ok (before ++ pairs) := by
  induction pairs generalizing before with
  | nil => rw [List.append_nil]; rfl
  | cons pair pairs ih =>
    have hnew : pair.1 ∉ Dict.keys before := by
      rw [Dict.keys, List.map_append, List.nodup_append] at h
      exact fun hmem => h.2.2 _ hmem _ List.mem_cons_self rfl
    have hround : addPair error before pair = .ok (before ++ [pair]) := by
      rw [addPair, if_neg hnew, Dict.set_of_notMem hnew]
    have hrest := ih (before ++ [pair]) (by rwa [List.append_assoc])
    rw [List.append_assoc] at hrest
    rw [List.foldlM_cons, hround]
    exact hrest

/-- The hook that refuses duplicate keys keeps distinct ones. -/
theorem ofDistinctPairs_of_nodup {error : ε} {pairs : List (Text × Json)}
    (h : (Dict.keys pairs).Nodup) : ofDistinctPairs error pairs = .ok (.object pairs) := by
  rw [ofDistinctPairs, foldlM_addPair_of_nodup [] h]
  rfl

/-- The hook that refuses duplicate keys keeps what it does not refuse. -/
theorem ofDistinctPairs_eq_ok {error : ε} {pairs : List (Text × Json)} {value : Json}
    (h : ofDistinctPairs error pairs = .ok value) :
    value = .object pairs ∧ (Dict.keys pairs).Nodup := by
  obtain ⟨result, hresult, rfl⟩ := map_eq_ok_iff.mp h
  obtain ⟨rfl, hnodup⟩ := foldlM_addPair [] List.nodup_nil hresult
  exact ⟨rfl, hnodup⟩

/-- The loop over pairs fails with the error for a duplicate key. -/
theorem foldlM_addPair_eq_error {error raised : ε} {pairs before : List (Text × Json)}
    (h : pairs.foldlM (addPair error) before = .error raised) : raised = error := by
  induction pairs generalizing before with
  | nil => cases h
  | cons pair pairs ih =>
    rw [List.foldlM_cons, bind_eq_error_iff] at h
    rcases h with hround | ⟨between, -, hrest⟩
    · rw [addPair] at hround
      by_cases hkey : pair.1 ∈ Dict.keys before
      · rw [if_pos hkey] at hround
        exact (Except.error.inj hround).symm
      · rw [if_neg hkey] at hround
        cases hround
    · exact ih hrest

/-- The hook that refuses duplicate keys fails with its error. -/
theorem ofDistinctPairs_eq_error {error raised : ε} {pairs : List (Text × Json)}
    (h : ofDistinctPairs error pairs = .error raised) : raised = error := by
  rw [ofDistinctPairs] at h
  cases hpairs : pairs.foldlM (addPair error) [] with
  | error other =>
    rw [hpairs] at h
    rw [← Except.error.inj h]
    exact foldlM_addPair_eq_error hpairs
  | ok result =>
    rw [hpairs] at h
    cases h

mutual

/-- A document that the hook does not refuse is as it was, with distinct keys everywhere. -/
theorem hooked_ofDistinctPairs {error : ε} {raw value : Json}
    (h : hooked (ofDistinctPairs error) raw = .ok value) :
    value = raw ∧ raw.distinctKeys = true := by
  cases raw with
  | object members =>
    rw [hooked, bind_eq_ok_iff] at h
    obtain ⟨members', hmembers, hhook⟩ := h
    obtain ⟨rfl, hdistinct⟩ := hookedMembers_ofDistinctPairs hmembers
    obtain ⟨rfl, hnodup⟩ := ofDistinctPairs_eq_ok hhook
    rw [distinctKeys, hdistinct, decide_eq_true hnodup]
    exact ⟨rfl, rfl⟩
  | list items =>
    rw [hooked, map_eq_ok_iff] at h
    obtain ⟨items', hitems, rfl⟩ := h
    obtain ⟨rfl, hdistinct⟩ := hookedItems_ofDistinctPairs hitems
    exact ⟨rfl, hdistinct⟩
  | _ =>
    rw [hooked] at h
    · exact ⟨(Except.ok.inj h).symm, rfl⟩
    all_goals nofun

/-- Members that the hook does not refuse are as they were. -/
theorem hookedMembers_ofDistinctPairs {error : ε} {raw members : List (Text × Json)}
    (h : hookedMembers (ofDistinctPairs error) raw = .ok members) :
    members = raw ∧ membersDistinct raw = true := by
  cases raw with
  | nil =>
    cases h
    exact ⟨rfl, rfl⟩
  | cons member rest =>
    obtain ⟨key, value⟩ := member
    simp only [hookedMembers, bind_eq_ok_iff] at h
    obtain ⟨value', hvalue, rest', hrest, h⟩ := h
    obtain ⟨rfl, hdistinct⟩ := hooked_ofDistinctPairs hvalue
    obtain ⟨rfl, hdistinctRest⟩ := hookedMembers_ofDistinctPairs hrest
    cases h
    rw [membersDistinct, hdistinct, hdistinctRest]
    exact ⟨rfl, rfl⟩

/-- Items that the hook does not refuse are as they were. -/
theorem hookedItems_ofDistinctPairs {error : ε} {raw items : List Json}
    (h : hookedItems (ofDistinctPairs error) raw = .ok items) :
    items = raw ∧ itemsDistinct raw = true := by
  cases raw with
  | nil =>
    cases h
    exact ⟨rfl, rfl⟩
  | cons value rest =>
    simp only [hookedItems, bind_eq_ok_iff] at h
    obtain ⟨value', hvalue, rest', hrest, h⟩ := h
    obtain ⟨rfl, hdistinct⟩ := hooked_ofDistinctPairs hvalue
    obtain ⟨rfl, hdistinctRest⟩ := hookedItems_ofDistinctPairs hrest
    cases h
    rw [itemsDistinct, hdistinct, hdistinctRest]
    exact ⟨rfl, rfl⟩

end

mutual

/-- The hook that refuses duplicate keys keeps a document with distinct keys. -/
theorem hooked_of_distinctKeys {error : ε} {value : Json} (h : value.distinctKeys = true) :
    hooked (ofDistinctPairs error) value = .ok value := by
  cases value with
  | object members =>
    rw [distinctKeys, Bool.and_eq_true] at h
    rw [hooked, hookedMembers_of_distinct h.2]
    exact ofDistinctPairs_of_nodup (of_decide_eq_true h.1)
  | list items =>
    rw [hooked, hookedItems_of_distinct h]
    rfl
  | _ => rw [hooked] <;> nofun

/-- The hook that refuses duplicate keys keeps members with distinct keys in their values. -/
theorem hookedMembers_of_distinct {error : ε} {members : List (Text × Json)}
    (h : membersDistinct members = true) :
    hookedMembers (ofDistinctPairs error) members = .ok members := by
  cases members with
  | nil => rfl
  | cons member rest =>
    obtain ⟨key, value⟩ := member
    rw [membersDistinct, Bool.and_eq_true] at h
    rw [hookedMembers, hooked_of_distinctKeys h.1, hookedMembers_of_distinct h.2]
    rfl

/-- The hook that refuses duplicate keys keeps items with distinct keys in them. -/
theorem hookedItems_of_distinct {error : ε} {items : List Json} (h : itemsDistinct items = true) :
    hookedItems (ofDistinctPairs error) items = .ok items := by
  cases items with
  | nil => rfl
  | cons value rest =>
    rw [itemsDistinct, Bool.and_eq_true] at h
    rw [hookedItems, hooked_of_distinctKeys h.1, hookedItems_of_distinct h.2]
    rfl

end

end Json

/-- `json.loads(text, object_pairs_hook=hook)`, where what is read is a document with the hook
applied to its objects, and an error of the hook is one for some members. -/
structure JsonLoads where
  loads : {ε : Type} → Hook ε → Str → Except (LoadsError ε) Json
  hooked_of_loads : ∀ {ε : Type} {hook : Hook ε} {text : Str} {value : Json},
    loads hook text = .ok value → ∃ raw, Json.hooked hook raw = .ok value
  hook_of_loads : ∀ {ε : Type} {hook : Hook ε} {text : Str} {error : ε},
    loads hook text = .error (.hookError error) → ∃ members, hook members = .error error

/-- A reader of some texts as documents. -/
def JsonLoads.ofReader (read : Str → Option Json) : JsonLoads where
  loads hook text :=
    match read text with
    | some value => (Json.hooked hook value).mapError .hookError
    | none => .error .decodeError
  hooked_of_loads := by
    intro ε hook text result h
    cases hread : read text with
    | none =>
      rw [hread] at h
      cases h
    | some value =>
      simp only [hread] at h
      cases hvalue : Json.hooked hook value with
      | error error => simp [hvalue, Except.mapError] at h
      | ok found =>
        rw [hvalue] at h
        exact ⟨value, hvalue.trans (congrArg Except.ok (Except.ok.inj h))⟩
  hook_of_loads := by
    intro ε hook text error h
    cases hread : read text with
    | none =>
      rw [hread] at h
      cases h
    | some value =>
      simp only [hread] at h
      cases hvalue : Json.hooked hook value with
      | error raised =>
        rw [hvalue] at h
        obtain rfl := LoadsError.hookError.inj (Except.error.inj h)
        exact Json.exists_hook_of_hooked hvalue
      | ok found => simp [hvalue, Except.mapError] at h

/-- A reader of one document. -/
def JsonLoads.ofDocument (document : Str) (value : Json) : JsonLoads :=
  .ofReader fun text => if text = document then some value else none

/-- A reader of one document, whose last character may be missing. -/
def JsonLoads.ofWritten (document : Str) (value : Json) : JsonLoads :=
  .ofReader fun text =>
    if text <+: document ∧ document.length ≤ text.length + 1 then some value else none

/-- What is read with distinct keys is loaded as it is. -/
theorem JsonLoads.loads_ofReader {ε : Type} {error : ε} {read : Str → Option Json} {text : Str}
    {value : Json} (hread : read text = some value) (h : value.distinctKeys = true) :
    (JsonLoads.ofReader read).loads (Json.ofDistinctPairs error) text = .ok value := by
  rw [ofReader]
  simp only [hread, Json.hooked_of_distinctKeys h]
  rfl

/-- A document with distinct keys is read as it is. -/
theorem JsonLoads.loads_ofDocument {ε : Type} {error : ε} {document : Str} {value : Json}
    (h : value.distinctKeys = true) :
    (JsonLoads.ofDocument document value).loads (Json.ofDistinctPairs error) document =
      .ok value :=
  loads_ofReader (if_pos rfl) h

/-- A text that was written is loaded as this value while no more than its last character is
missing, and a shorter part of it is not loaded. -/
def JsonLoads.LoadsWritten (json : JsonLoads) {ε : Type} (hook : Hook ε) (text : Str)
    (value : Json) : Prop :=
  ∀ length found, json.loads hook (text.take length) = .ok found ↔
    text.length ≤ length + 1 ∧ found = value

/-- A document with distinct keys is loaded from what was written. -/
theorem JsonLoads.loadsWritten_ofWritten {ε : Type} {error : ε} {document : Str} {value : Json}
    (h : value.distinctKeys = true) :
    (JsonLoads.ofWritten document value).LoadsWritten (Json.ofDistinctPairs error) document
      value := by
  intro length found
  by_cases hlength : document.length ≤ length + 1
  · have hread : document.take length <+: document ∧
        document.length ≤ (document.take length).length + 1 := by
      refine ⟨List.take_prefix length document, ?_⟩
      rw [List.length_take]
      omega
    rw [ofWritten, loads_ofReader (if_pos hread) h, Except.ok.injEq, eq_comm]
    exact (and_iff_right hlength).symm
  · have hread : ¬(document.take length <+: document ∧
        document.length ≤ (document.take length).length + 1) := by
      rw [List.length_take]
      omega
    rw [ofWritten, ofReader]
    simp only [if_neg hread, hlength, false_and, reduceCtorEq]

/-- A document that is read with the hook that refuses duplicate keys has distinct keys. -/
theorem JsonLoads.distinctKeys (json : JsonLoads) {ε : Type} {error : ε} {text : Str} {value : Json}
    (h : json.loads (Json.ofDistinctPairs error) text = .ok value) : value.distinctKeys = true := by
  obtain ⟨raw, hraw⟩ := json.hooked_of_loads h
  obtain ⟨rfl, hdistinct⟩ := Json.hooked_ofDistinctPairs hraw
  exact hdistinct

end Python
