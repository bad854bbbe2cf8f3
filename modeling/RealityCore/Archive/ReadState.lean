import RealityCore.Archive.State

/-!
# Which states are read

A state is read back when it is a document with the hashes of the artifacts in order. Two steps of
the check go further than the shape: the conversion of the artifacts to a dictionary fails for
values that are no sequence of pairs, and the comparison of the version takes every number of the
value one.
-/

namespace RealityCore.Archive

open Outcome (bind_eq_ok_iff guard_eq_ok_iff map_eq_ok_iff)
open Python (Bytes Dict Files IsHex IsPlain Json JsonLoads LoadsError PurePath Str Text encodeUtf8
  points)

/-! ## States -/

/-- The hashes of the artifacts. -/
structure IsHashes (hashes : List Text) : Prop where
  length : hashes.length = ARTIFACTS.length
  hex : ∀ hash ∈ hashes, IsHex 64 hash

/-- The artifacts with their hashes. -/
def artifactsOf (hashes : List Text) : Json :=
  .object ((ARTIFACTS.map points).zip (hashes.map .str))

/-- A state but for its version. -/
def IsStateWith (version value : Json) : Prop :=
  ∃ hashes, IsHashes hashes ∧ value = .object (stateMembers version (artifactsOf hashes))

/-- A state: the integer one, and the artifacts in order with a hash each. -/
def IsState (value : Json) : Prop := IsStateWith (.int 1) value

/-- What is loaded is returned when it is a state, and refused with the error of the script
otherwise. -/
def Settles (loaded : Except (LoadsError Failure) Json) (result : Result Json) : Prop :=
  (∃ value, loaded = .ok value ∧ IsState value ∧ result = .ok value) ∨
    (∀ value, loaded = .ok value → ¬IsState value) ∧
      ∃ message, result = .error (.artifactError message)

/-- The artifacts of a dictionary. -/
def artifactsMember (value : List (Text × Json)) : Json :=
  (Dict.get? value (points "artifacts")).getD (.object [])

/-- A document that can be loaded or has a syntax error or a duplicate key. If it is a dictionary,
its artifacts are a sequence of pairs, and it is not a state with another number for its version. -/
structure IsReadable (loaded : Except (LoadsError Failure) Json) : Prop where
  loads : loaded ≠ .error .otherError
  convertible : ∀ value, loaded = .ok (.object value) → (artifactsMember value).IsConvertible
  version : ∀ value version, loaded = .ok (.object value) → version.IsOne →
    IsStateWith version (.object value) → version = .int 1

/-- A state has one version. -/
theorem version_unique {version other value : Json} (h : IsStateWith version value)
    (hother : IsStateWith other value) : version = other := by
  obtain ⟨hashes, -, rfl⟩ := h
  obtain ⟨hashes', -, heq⟩ := hother
  obtain ⟨hversion, -⟩ := List.cons.inj (Json.object.inj heq)
  exact congrArg Prod.snd hversion

/-! ## The checks -/

/-- A hash is a text of so many hexadecimal digits. -/
theorem isSha256_iff {value : Json} :
    isSha256 value = true ↔ ∃ text, value = .str text ∧ IsHex 64 text := by
  cases value with
  | str text =>
    rw [isSha256, Regex.fullMatch_times_set_iff]
    constructor
    · exact fun h => ⟨text, rfl, h⟩
    · rintro ⟨other, hother, h⟩
      rwa [Json.str.inj hother]
  | _ => simp [isSha256]

/-- Values that are hashes are the texts of hashes. -/
theorem exists_hashes (values : List Json) (h : ∀ value ∈ values, isSha256 value = true) :
    ∃ hashes : List Text, values = hashes.map .str ∧ ∀ hash ∈ hashes, IsHex 64 hash := by
  induction values with
  | nil => exact ⟨[], rfl, nofun⟩
  | cons value values ih =>
    obtain ⟨hvalue, hvalues⟩ := List.forall_mem_cons.mp h
    obtain ⟨text, rfl, htext⟩ := isSha256_iff.mp hvalue
    obtain ⟨hashes, rfl, hhashes⟩ := ih hvalues
    exact ⟨text :: hashes, rfl, List.forall_mem_cons.mpr ⟨htext, hhashes⟩⟩

/-- A dictionary passes with its artifacts when its keys are in order and the artifacts have a hash
each. -/
theorem checkArtifacts_eq_ok_iff {value : List (Text × Json)} {artifacts result : Json} :
    checkArtifacts value artifacts = .ok result ↔
      Dict.keys value = ["schemaVersion", "artifacts"].map points ∧
        (∃ hashes, IsHashes hashes ∧ artifacts = artifactsOf hashes) ∧ result = .object value := by
  cases artifacts with
  | object artifacts =>
    simp only [checkArtifacts, refuseAll, guard_eq_ok_iff, not_or, not_not, decide_not,
      Bool.decide_eq_true]
    constructor
    · rintro ⟨⟨hkeys, hartifacts⟩, hsha, hresult⟩
      obtain ⟨hashes, hvalues, hhex⟩ := exists_hashes (artifacts.map Prod.snd) (by
        intro value hvalue
        obtain ⟨item, hitem, rfl⟩ := List.mem_map.mp hvalue
        simp only [Bool.not_eq_true, List.any_eq_false, Bool.not_eq_eq_eq_not, Bool.not_true,
          Bool.not_eq_false] at hsha
        exact hsha item hitem)
      have hlength := congrArg List.length hvalues
      have hkeysLength := congrArg List.length hartifacts
      simp only [Dict.keys, List.length_map] at hlength hkeysLength
      refine ⟨hkeys, ⟨hashes, ⟨hlength.symm.trans hkeysLength, hhex⟩, ?_⟩,
        (Except.ok.inj hresult).symm⟩
      rw [artifactsOf, ← hartifacts, ← hvalues, Dict.keys, ← List.unzip_fst, ← List.unzip_snd,
        List.zip_unzip]
    · rintro ⟨hkeys, ⟨hashes, hhashes, hartifacts⟩, rfl⟩
      obtain rfl := Json.object.inj hartifacts
      refine ⟨⟨hkeys, ?_⟩, ?_, rfl⟩
      · rw [Dict.keys, List.map_fst_zip]
        rw [List.length_map, List.length_map, hhashes.length]
      · simp only [Bool.not_eq_true, List.any_eq_false, Bool.not_eq_eq_eq_not, Bool.not_true,
          Bool.not_eq_false]
        intro item hitem
        obtain ⟨hash, hhash, htext⟩ := List.mem_map.mp (List.of_mem_zip hitem).2
        exact isSha256_iff.mpr ⟨hash, htext.symm, hhashes.hex hash hhash⟩
  | _ => simp [checkArtifacts, artifactsOf]

/-- What holds a dictionary for its artifacts is equal to a document with them only then. -/
theorem exists_object_of_equalsState {value : List (Text × Json)}
    {dictionary : List (Json × Json)} (h : equalsState value dictionary = true) :
    ∃ artifacts, Dict.get? value (points "artifacts") = some (.object artifacts) := by
  rw [equalsState, Bool.and_eq_true, Option.any_eq_true] at h
  obtain ⟨-, held, hget, hsame⟩ := h
  cases held with
  | object artifacts => exact ⟨artifacts, hget⟩
  | _ => cases hsame

/-- A dictionary whose artifacts are converted passes exactly when it is a state, but for the kind
of number that is its version. -/
theorem checkState_eq_ok_iff {value : List (Text × Json)} {dictionary : List (Json × Json)}
    (hdistinct : (Json.object value).distinctKeys = true)
    (hdictionary : (artifactsMember value).dictOf = .ok dictionary) (result : Json) :
    checkState (.object value) = .ok result ↔
      result = .object value ∧ ∃ version : Json, version.IsOne ∧
        IsStateWith version (.object value) := by
  simp only [artifactsMember] at hdictionary
  simp only [checkState, hdictionary, refuseAll, guard_eq_ok_iff, not_not, checkArtifacts_eq_ok_iff]
  constructor
  · rintro ⟨hequals, hkeys, ⟨hashes, hhashes, hartifacts⟩, rfl⟩
    refine ⟨rfl, ?_⟩
    obtain ⟨⟨_, version⟩, _, rfl, rfl, hrest⟩ := List.map_eq_cons_iff.mp hkeys
    obtain ⟨⟨_, held⟩, _, rfl, rfl, hnil⟩ := List.map_eq_cons_iff.mp hrest
    obtain rfl := List.map_eq_nil_iff.mp hnil
    have hget : Dict.get? [(points "schemaVersion", version), (points "artifacts", held)]
        (points "artifacts") = some held := by
      simp [Dict.get?_cons]
    rw [hget, Option.getD_some] at hartifacts
    have hversion : version.same (.int 1) = true := by
      simpa [equalsState, Dict.get?_cons] using (Bool.and_eq_true _ _ ▸ hequals).1
    exact ⟨version, Json.same_one_iff.mp hversion, hashes, hhashes, by rw [hartifacts]; rfl⟩
  · rintro ⟨rfl, version, hversion, hashes, hhashes, hvalue⟩
    obtain rfl := Json.object.inj hvalue
    have hget : Dict.get? (stateMembers version (artifactsOf hashes)) (points "artifacts") =
        some (artifactsOf hashes) := by
      simp [stateMembers, Dict.get?_cons]
    have hdistinctArtifacts : (artifactsOf hashes).distinctKeys = true := by
      rw [Json.distinctKeys, Bool.and_eq_true] at hdistinct
      exact Json.distinctKeys_of_get? hdistinct.2 hget
    rw [hget, Option.getD_some, artifactsOf, Json.dictOf] at hdictionary
    refine ⟨?_, rfl, ⟨hashes, hhashes, by rw [hget, Option.getD_some]⟩, rfl⟩
    rw [← Except.ok.inj hdictionary]
    have hsame := Json.sameDict_self hdistinctArtifacts
    have hone := Json.same_one_iff.mpr hversion
    simpa [equalsState, stateMembers, Dict.get?_cons, hone, artifactsOf] using hsame

/-- A dictionary whose artifacts are converted is returned, or refused with the error of the
script. -/
theorem checkState_cases {value : List (Text × Json)} {dictionary : List (Json × Json)}
    (hdictionary : (artifactsMember value).dictOf = .ok dictionary) :
    (∃ result, checkState (.object value) = .ok result) ∨
      ∃ message, checkState (.object value) = .error (.artifactError message) := by
  simp only [artifactsMember] at hdictionary
  simp only [checkState, hdictionary]
  by_cases hequals : equalsState value dictionary = true
  · obtain ⟨artifacts, hget⟩ := exists_object_of_equalsState hequals
    rw [if_neg (not_not.mpr hequals), hget, Option.getD_some, checkArtifacts]
    split
    · exact .inr ⟨_, rfl⟩
    split
    · exact .inr ⟨_, rfl⟩
    · exact .inl ⟨_, rfl⟩
  · rw [if_pos hequals]
    exact .inr ⟨_, rfl⟩

/-- Artifacts that are not converted raise another error. -/
theorem checkState_of_not_convertible {value : List (Text × Json)}
    (h : ¬(artifactsMember value).IsConvertible) :
    ∃ message, checkState (.object value) = .error (.uncaught message) := by
  cases hdictionary : (artifactsMember value).dictOf with
  | ok dictionary => exact absurd (Json.exists_dictOf_iff.mp ⟨dictionary, hdictionary⟩) h
  | error error =>
    simp only [artifactsMember] at hdictionary
    cases error <;> simp only [checkState, hdictionary] <;> exact ⟨_, rfl⟩

/-- A dictionary is returned when it is a state and refused otherwise exactly when its artifacts are
converted and its version, if it is a state but for it, is the integer one. -/
theorem settles_checkState_iff {value : List (Text × Json)}
    (hdistinct : (Json.object value).distinctKeys = true) :
    Settles (.ok (.object value)) (checkState (.object value)) ↔
      IsReadable (.ok (.object value)) := by
  by_cases hconvertible : (artifactsMember value).IsConvertible
  · obtain ⟨dictionary, hdictionary⟩ := Json.exists_dictOf_iff.mpr hconvertible
    have hok := checkState_eq_ok_iff hdistinct hdictionary
    constructor
    · intro hsettles
      refine ⟨nofun, fun other hother => ?_, fun other version hother hone hstate => ?_⟩
      · obtain rfl := Json.object.inj (Except.ok.inj hother)
        exact hconvertible
      · obtain rfl := Json.object.inj (Except.ok.inj hother)
        have hreturned := (hok _).mpr ⟨rfl, version, hone, hstate⟩
        rcases hsettles with ⟨found, hfound, hfoundState, -⟩ | ⟨-, message, herror⟩
        · obtain rfl := Except.ok.inj hfound
          exact version_unique hstate hfoundState
        · rw [hreturned] at herror
          cases herror
    · intro hreadable
      rcases checkState_cases hdictionary with ⟨result, hresult⟩ | ⟨message, herror⟩
      · obtain ⟨rfl, version, hone, hstate⟩ := (hok result).mp hresult
        obtain rfl := hreadable.version _ _ rfl hone hstate
        exact .inl ⟨_, rfl, hstate, hresult⟩
      · refine .inr ⟨fun found hfound hstate => ?_, message, herror⟩
        obtain rfl := Except.ok.inj hfound
        have hreturned := (hok _).mpr ⟨rfl, .int 1, Json.isOne_iff.mpr (.head _), hstate⟩
        rw [herror] at hreturned
        cases hreturned
  · obtain ⟨message, herror⟩ := checkState_of_not_convertible hconvertible
    constructor
    · rintro (⟨_, -, -, hreturned⟩ | ⟨-, message', herror'⟩)
      · rw [herror] at hreturned
        cases hreturned
      · rw [herror] at herror'
        cases herror'
    · exact fun hreadable => absurd (hreadable.convertible _ rfl) hconvertible

/-- A short file without NUL bytes is parsed. -/
theorem readState_eq_parseState {json : JsonLoads} {files : Files} {path : PurePath} {data : Bytes}
    (hfile : files path = .file data) (hlength : data.length ≤ MAX_STATE_BYTES) (hnul : 0 ∉ data) :
    readState json files path = parseState json data := by
  rw [readState, hfile]
  exact if_neg (not_or.mpr ⟨Nat.not_lt.mpr hlength, hnul⟩)

/-- Stored octets are returned as their state or refused exactly when what is loaded is readable. -/
theorem settles_parseState_iff (json : JsonLoads) (data : Bytes) :
    Settles (load json data) (parseState json data) ↔ IsReadable (load json data) := by
  unfold parseState
  cases hload : load json data with
  | error error =>
    cases error with
    | decodeError =>
      exact ⟨fun _ => ⟨nofun, nofun, nofun⟩, fun _ => .inr ⟨nofun, _, rfl⟩⟩
    | hookError failure =>
      have hfailure : failure =
          .artifactError "reproducibility state contains duplicate keys".toList := by
        cases htext : Python.decodeUtf8 data with
        | none => simp [load, htext] at hload
        | some text =>
          simp only [load, htext] at hload
          obtain ⟨members, hmembers⟩ := json.hook_of_loads hload
          exact Json.ofDistinctPairs_eq_error hmembers
      exact ⟨fun _ => ⟨nofun, nofun, nofun⟩, fun _ => .inr ⟨nofun, _, congrArg _ hfailure⟩⟩
    | otherError =>
      refine ⟨?_, fun hreadable => absurd rfl hreadable.loads⟩
      rintro (⟨_, h, -⟩ | ⟨-, message, herror⟩)
      · cases h
      · cases herror
  | ok value =>
    cases value with
    | object value =>
      refine settles_checkState_iff ?_
      cases htext : Python.decodeUtf8 data with
      | none => simp [load, htext] at hload
      | some text =>
        simp only [load, htext] at hload
        exact json.distinctKeys hload
    | _ =>
      refine ⟨fun _ => ⟨nofun, nofun, nofun⟩, fun _ => .inr ⟨?_, _, rfl⟩⟩
      rintro value hvalue ⟨hashes, -, rfl⟩
      cases hvalue

/-! ## Written states -/

/-- One round of the loop over the artifacts sets the hash of an artifact. -/
theorem addArtifact_eq_ok {build : Build} {root : PurePath} {values result : List (Text × Json)}
    {relative : String} (h : addArtifact build root values relative = .ok result) :
    ∃ hash, IsHex 64 hash ∧ result = Dict.set values (points relative) (.str hash) := by
  obtain ⟨path, -, h⟩ := bind_eq_ok_iff.mp h
  rw [guard_eq_ok_iff] at h
  obtain ⟨data, -, h⟩ := bind_eq_ok_iff.mp h.2
  obtain ⟨-, -, h⟩ := bind_eq_ok_iff.mp h
  obtain ⟨hash, hhash, h⟩ := bind_eq_ok_iff.mp h
  obtain ⟨content, -, rfl⟩ := map_eq_ok_iff.mp hhash
  exact ⟨_, build.sha256.hexdigest_hex _, (Except.ok.inj h).symm⟩

/-- The loop over artifacts appends them in order, with a hash each. -/
theorem foldlM_addArtifact {build : Build} {root : PurePath} {values result : List (Text × Json)}
    {relatives : List String} (hnodup : relatives.Nodup)
    (hnew : ∀ relative ∈ relatives, points relative ∉ Dict.keys values)
    (h : relatives.foldlM (addArtifact build root) values = .ok result) :
    ∃ hashes : List Text, hashes.length = relatives.length ∧ (∀ hash ∈ hashes, IsHex 64 hash) ∧
      result = values ++ (relatives.map points).zip (hashes.map .str) := by
  induction relatives generalizing values with
  | nil =>
    cases h
    exact ⟨[], rfl, nofun, (List.append_nil _).symm⟩
  | cons relative relatives ih =>
    rw [List.foldlM_cons, bind_eq_ok_iff] at h
    obtain ⟨between, hround, hrest⟩ := h
    obtain ⟨hash, hhash, rfl⟩ := addArtifact_eq_ok hround
    obtain ⟨hfirst, hlater⟩ := List.forall_mem_cons.mp hnew
    obtain ⟨hnotMem, hrestNodup⟩ := List.nodup_cons.mp hnodup
    rw [Dict.set_of_notMem hfirst] at hrest
    have hstillNew : ∀ other ∈ relatives,
        points other ∉ Dict.keys (values ++ [(points relative, Json.str hash)]) := by
      intro other hother hmem
      rw [Dict.keys, List.map_append, List.mem_append] at hmem
      rcases hmem with hbefore | hthis
      · exact hlater other hother hbefore
      · exact hnotMem (Python.points_inj.mp (List.mem_singleton.mp hthis) ▸ hother)
    obtain ⟨hashes, hlength, hhex, rfl⟩ := ih hrestNodup hstillNew hrest
    refine ⟨hash :: hashes, congrArg Nat.succ hlength, List.forall_mem_cons.mpr ⟨hhash, hhex⟩, ?_⟩
    rw [List.append_assoc]
    rfl

/-- What is collected is a state. -/
theorem isState_of_collectArtifactHashes {build : Build} {root : PurePath} {state : Json}
    (h : collectArtifactHashes build root = .ok state) : IsState state := by
  obtain ⟨values, hvalues, rfl⟩ := map_eq_ok_iff.mp h
  obtain ⟨hashes, hlength, hhex, rfl⟩ :=
    foldlM_addArtifact (by decide) (fun _ _ => List.not_mem_nil) hvalues
  exact ⟨hashes, ⟨hlength, hhex⟩, rfl⟩

/-- The braces and the colon are plain. -/
theorem isPlain_marks : IsPlain "\x7b".toList ∧ IsPlain "\x7d".toList ∧ IsPlain ": ".toList := by
  decide

/-- The line of an artifact is short and plain. -/
theorem artifactLine_spec {hashes : List Text} {line : Str} (h : IsHashes hashes)
    (hline : line ∈ Json.membersIndent 2 2 ((ARTIFACTS.map points).zip (hashes.map .str))) :
    IsPlain line ∧ line.length ≤ 1494 := by
  obtain ⟨key, hkey, hash, hhash, rfl⟩ := Json.mem_membersIndent_zip hline
  refine ⟨((Python.isPlain_writeText key).append isPlain_marks.2.2).append
    (Python.isPlain_writeText hash), ?_⟩
  have hkeys : ∀ key ∈ ARTIFACTS.map points, key.length ≤ 60 := by decide
  have hkeyLength := hkeys key hkey
  have hhashLength := (h.hex hash hhash).1
  have hwrittenKey := Python.length_writeText_le key
  have hwrittenHash := Python.length_writeText_le hash
  have hcolon : ": ".toList.length = 2 := by decide
  rw [List.length_append, List.length_append]
  omega

/-- The artifacts are written as a short plain text. -/
theorem artifactsText_spec {hashes : List Text} (h : IsHashes hashes) :
    IsPlain ((artifactsOf hashes).dumpsIndent 2 1) ∧
      ((artifactsOf hashes).dumpsIndent 2 1).length ≤ 10502 := by
  rw [artifactsOf, Json.dumpsIndent]
  refine ⟨Json.isPlain_writeItems isPlain_marks.1 isPlain_marks.2.1 fun line hline =>
    (artifactLine_spec h hline).1, ?_⟩
  refine (Json.length_writeItems_le 2 1 _ _ fun line hline =>
    (artifactLine_spec h hline).2).trans ?_
  rw [Json.length_membersIndent, List.length_zip, List.length_map, List.length_map, h.length]
  decide

/-- A state is written as a short plain text. -/
theorem stateText_spec {state : Json} (h : IsState state) :
    IsPlain (stateText state) ∧ (stateText state).length ≤ MAX_STATE_BYTES := by
  obtain ⟨hashes, hhashes, rfl⟩ := h
  obtain ⟨hplain, hlength⟩ := artifactsText_spec hhashes
  have hlines : ∀ line ∈ Json.membersIndent 2 1 (stateMembers (.int 1) (artifactsOf hashes)),
      IsPlain line ∧ line.length ≤ 10614 := by
    simp only [stateMembers, Json.membersIndent, List.forall_mem_cons, List.not_mem_nil,
      false_implies, implies_true, and_true]
    refine ⟨⟨by decide, by decide⟩,
      ((Python.isPlain_writeText _).append isPlain_marks.2.2).append hplain, ?_⟩
    have hkey : (Python.writeText (points "artifacts") ++ ": ".toList).length = 13 := by decide
    rw [List.length_append, hkey]
    omega
  rw [stateText, Json.dumpsIndent, Nat.zero_add]
  refine ⟨(Json.isPlain_writeItems isPlain_marks.1 isPlain_marks.2.1 fun line hline =>
    (hlines line hline).1).append (by decide), ?_⟩
  have hwritten := Json.length_writeItems_le 2 0 "\x7b" "\x7d" fun line hline =>
    (hlines line hline).2
  have hcount : (Json.membersIndent 2 1 (stateMembers (.int 1) (artifactsOf hashes))).length = 2 :=
    Json.length_membersIndent 2 1 _
  have hbraces : "\x7b".toList.length + "\x7d".toList.length = 2 := by decide
  rw [hcount, hbraces] at hwritten
  rw [List.length_append, List.length_singleton, MAX_STATE_BYTES]
  omega

/-! ## The state of a build -/

/-- What is stored is returned when it is a state and refused with the error of the script
otherwise, exactly when it is readable; and a state that a build has written is returned. -/
theorem readState_settles_iff (json : JsonLoads) (files : Files) (path : PurePath) (data : Bytes)
    (hfile : files path = .file data) :
    (data.length ≤ MAX_STATE_BYTES → 0 ∉ data →
      (Settles (load json data) (readState json files path) ↔ IsReadable (load json data))) ∧
      ∀ build root state, collectArtifactHashes build root = .ok state →
        data = writtenState state → json.loads noDuplicates (stateText state) = .ok state →
        readState json files path = .ok state := by
  constructor
  · intro hlength hnul
    rw [readState_eq_parseState hfile hlength hnul]
    exact settles_parseState_iff json data
  · rintro build root state hcollected rfl hloads
    have hstate := isState_of_collectArtifactHashes hcollected
    obtain ⟨hplain, hlength⟩ := stateText_spec hstate
    have hload : load json (writtenState state) = .ok state := by
      rw [load, writtenState, Python.decodeUtf8_encodeUtf8]
      exact hloads
    rw [readState_eq_parseState hfile (by rwa [writtenState, Python.length_encodeUtf8 hplain])
      (Python.zero_notMem_encodeUtf8 hplain)]
    have hreadable : IsReadable (load json (writtenState state)) := by
      rw [hload]
      refine ⟨nofun, fun value hvalue => ?_, fun value version hvalue _ hother => ?_⟩
      · obtain ⟨hashes, -, rfl⟩ := hstate
        obtain rfl := Json.object.inj (Except.ok.inj hvalue)
        simp [artifactsMember, stateMembers, Dict.get?_cons, artifactsOf, Json.IsConvertible]
      · obtain rfl := Except.ok.inj hvalue
        exact version_unique hother hstate
    rcases (settles_parseState_iff json _).mpr hreadable with
      ⟨value, hvalue, -, hreturned⟩ | ⟨hnone, -⟩
    · rw [hload] at hvalue
      rw [hreturned, Except.ok.inj hvalue]
    · exact absurd hstate (hnone state hload)

/-- A file with one document is loaded as the document. -/
theorem load_ofDocument (state : Json) (h : state.distinctKeys = true) :
    load (.ofDocument (stateText state) state) (writtenState state) = .ok state := by
  rw [load, writtenState, Python.decodeUtf8_encodeUtf8]
  exact JsonLoads.loads_ofDocument h

/-- A state but for its version, the truth value. -/
def trueState : Json :=
  .object (stateMembers (.bool true)
    (artifactsOf (List.replicate 5 (List.replicate 64 (Python.CodePoint.ofChar '0')))))

/-- A version that is equal to one is returned, which the script itself never writes. -/
theorem readState_settles_iff_true :
    ¬Settles (load (.ofDocument (stateText trueState) trueState) (writtenState trueState))
      (readState (.ofDocument (stateText trueState) trueState)
        (fun _ => .file (writtenState trueState)) [points "state.json"]) := by
  rw [(readState_settles_iff _ _ _ _ rfl).1 (by decide +kernel) (by decide +kernel),
    load_ofDocument trueState (by decide +kernel)]
  intro hreadable
  have hstate : IsStateWith (.bool true) trueState := by
    refine ⟨_, ⟨rfl, fun hash hhash => ?_⟩, rfl⟩
    rw [List.eq_of_mem_replicate hhash]
    refine ⟨rfl, fun p hp => ?_⟩
    rw [List.eq_of_mem_replicate hp]
    decide
  cases hreadable.version _ _ rfl (Json.isOne_iff.mpr (.tail _ (.head _))) hstate

/-- A document without artifacts. -/
def nullState : Json := .object (stateMembers (.int 1) .null)

/-- A document without artifacts raises an error that is not one of the script. -/
theorem not_settles_nullState :
    (writtenState nullState).length ≤ MAX_STATE_BYTES ∧ 0 ∉ writtenState nullState ∧
      ¬Settles (load (.ofDocument (stateText nullState) nullState) (writtenState nullState))
        (readState (.ofDocument (stateText nullState) nullState)
          (fun _ => .file (writtenState nullState)) [points "state.json"]) := by
  have hlength : (writtenState nullState).length ≤ MAX_STATE_BYTES := by decide +kernel
  have hnul : 0 ∉ writtenState nullState := by decide +kernel
  have hload := load_ofDocument nullState (by decide +kernel)
  have hraised : readState (.ofDocument (stateText nullState) nullState)
      (fun _ => .file (writtenState nullState)) [points "state.json"] =
        .error (.uncaught "TypeError".toList) := by
    rw [readState_eq_parseState rfl hlength hnul, parseState, hload]
    simp [checkState, nullState, stateMembers, Dict.get?_cons, Json.dictOf, Json.elements]
  refine ⟨hlength, hnul, ?_⟩
  rw [hraised]
  rintro (⟨_, -, -, hreturned⟩ | ⟨-, message, herror⟩)
  · cases hreturned
  · cases herror

end RealityCore.Archive
