import RealityCore.Archive.CollectedHashes
import RealityCore.Library.Recorder

/-!
# The reproducibility check over clean builds

The script is run once for each clean build. With `--write` it stores the state of the build, and
with `--compare` it reads a stored state and compares it with that of the build. Over all runs it
behaves as a recorder of the hashes of the artifacts.
-/

namespace RealityCore.Archive

open Outcome (guard_eq_ok_iff)
open Python (Dict Files Json JsonLoads Node PurePath Text points)
open Recorder (Attempt Event Overwrites RecordedLast Script)

/-- `except (OSError, ArtifactError)` -/
def isCaught : Failure → Bool
  | .artifactError _ => true
  | .uncaught name => name = "OSError".toList

/-- The files of a build, with what stands at the path of the state. -/
def Build.withState (build : Build) (path : PurePath) (node : Node) : Build :=
  { build with files := Function.update build.files path node }

/-- What `main(argv)` does under `try`, with what stands at the path of the state. A state whose
directory cannot be made is refused like one that cannot be opened. -/
def script (json : JsonLoads) (root path : PurePath) : Script Build Node Failure Json where
  collect node build := collectArtifactHashes (build.withState path node) root
  store current := Node.written (writtenState current)
  unstored := .uncaught "OSError".toList
  load node build := readState json (build.withState path node).files path
  same first current := first.equal current
  different := .artifactError "clean-build artifact hashes differ".toList

/-- `main(argv)`, with what it leaves at the path of the state. -/
def main (json : JsonLoads) (root path : PurePath) (node : Node) (event : Event Build) :
    Node × Result ℕ :=
  (script json root path).main isCaught node event

/-- What is at the path of the state after some runs, when nothing was there before. -/
def stateAfter (json : JsonLoads) (root path : PurePath) (runs : List (Event Build)) : Node :=
  (Machine.run (main json root path) .missing runs).2

/-! ## Collecting beside a state -/

/-- What stands elsewhere does not change what an artifact is. -/
theorem isArtifact_withState_iff {build : Build} {root path : PurePath} {node : Node}
    (hpath : ¬root.join (points "build") <+: path) {relative : String}
    (hrelative : relative ∈ ARTIFACTS) {artifact : PurePath} {content : Python.Bytes} :
    IsArtifact (build.withState path node) root relative artifact content ↔
      IsArtifact build root relative artifact content := by
  have hfile (h : artifactPath build root relative = .ok artifact) :
      (build.withState path node).files artifact = build.files artifact :=
    Function.update_of_ne (fun (heq : artifact = path) =>
      hpath (heq ▸ artifactPath_eq_ok hrelative h)) _ _
  constructor
  · rintro ⟨hartifact, hcontent, hlength, hvalid⟩
    exact ⟨hartifact, hfile hartifact ▸ hcontent, hlength, hvalid⟩
  · rintro ⟨hartifact, hcontent, hlength, hvalid⟩
    exact ⟨hartifact, (hfile hartifact).trans hcontent, hlength, hvalid⟩

/-- What stands elsewhere does not change the hashes of a build. -/
theorem hasHashes_withState_iff {build : Build} {root path : PurePath} {node : Node}
    (hpath : ¬root.join (points "build") <+: path) {hashes : List Text} :
    HasHashes root (build.withState path node) hashes ↔ HasHashes root build hashes := by
  have hhash (relative : String) (hrelative : relative ∈ ARTIFACTS) (hash : Text) :
      HasHash (build.withState path node) root relative hash ↔
        HasHash build root relative hash :=
    exists_congr fun _ => exists_congr fun _ =>
      and_congr_left fun _ => isArtifact_withState_iff hpath hrelative
  constructor
  · exact fun h => Outcome.forall₂_imp_of_mem h fun relative hash hrelative =>
      (hhash relative hrelative hash).mp
  · exact fun h => Outcome.forall₂_imp_of_mem h fun relative hash hrelative =>
      (hhash relative hrelative hash).mpr

/-- What is collected from a build. -/
def collected (root : PurePath) (build : Build) : Option Json :=
  (collectArtifactHashes build root).toOption

/-- What is collected is the state of the hashes of a build. -/
theorem collected_eq_some_iff {root : PurePath} {build : Build} {state : Json} :
    collected root build = some state ↔ ∃ hashes, HasHashes root build hashes ∧
      state = stateOf hashes := by
  rw [← collectArtifactHashes_eq_ok_iff, collected]
  cases collectArtifactHashes build root <;> simp [Except.toOption]

/-- What stands elsewhere does not change what is collected. -/
theorem collected_withState {build : Build} {root path : PurePath} {node : Node}
    (hpath : ¬root.join (points "build") <+: path) :
    collected root (build.withState path node) = collected root build := by
  refine Option.ext fun state => ?_
  rw [collected_eq_some_iff, collected_eq_some_iff]
  exact exists_congr fun _ => and_congr_left fun _ => hasHashes_withState_iff hpath

/-! ## Comparing states -/

/-- The hashes of a build are those of a state. -/
theorem isHashes_of_hasHashes {build : Build} {root : PurePath} {hashes : List Text}
    (h : HasHashes root build hashes) : IsHashes hashes := by
  refine ⟨h.length_eq.symm, fun hash hhash => ?_⟩
  obtain ⟨relative, -, path, content, -, rfl⟩ := Outcome.exists_of_forall₂_right h hhash
  exact build.sha256.hexdigest_hex _

/-- The keys of the artifacts. -/
theorem keys_artifacts {hashes : List Text} (h : IsHashes hashes) :
    Dict.keys ((ARTIFACTS.map points).zip (hashes.map Json.str)) = ARTIFACTS.map points := by
  rw [Dict.keys, List.map_fst_zip]
  rw [List.length_map, List.length_map, h.length]

/-- Artifacts are equal when their hashes are. -/
theorem hashes_eq_of_same {hashes others : List Text} (h : IsHashes hashes) (h' : IsHashes others)
    (hsame : (artifactsOf hashes).same (artifactsOf others) = true) : hashes = others := by
  have hnodup : (ARTIFACTS.map points).Nodup := by decide
  rw [artifactsOf, artifactsOf, Json.same, Bool.and_eq_true, Json.sameMembers_iff] at hsame
  have hmembers := Dict.eq_of_get? ((keys_artifacts h').trans (keys_artifacts h).symm)
    ((keys_artifacts h).symm ▸ hnodup) (by
      rintro ⟨key, value⟩ hmember
      obtain ⟨other, hget, hequal⟩ := hsame.2 _ hmember
      obtain ⟨hash, -, rfl⟩ := List.mem_map.mp (List.of_mem_zip hmember).2
      rw [hget, Json.eq_of_same_str hequal])
  have htexts := congrArg (List.map Prod.snd) hmembers
  rw [List.map_snd_zip (by simp [h'.length]), List.map_snd_zip (by simp [h.length])] at htexts
  exact (List.map_injective_iff.mpr (fun _ _ => Json.str.inj) htexts).symm

/-- A state determines its hashes. -/
theorem stateOf_injective {hashes others : List Text} (h : IsHashes hashes) (h' : IsHashes others)
    (heq : stateOf hashes = stateOf others) : hashes = others := by
  simp only [stateOf, stateMembers, artifactsOf, Json.object.injEq, List.cons.injEq, Prod.mk.injEq,
    true_and, and_true] at heq
  have htexts := congrArg (List.map Prod.snd) heq
  rw [List.map_snd_zip (by simp [h.length]), List.map_snd_zip (by simp [h'.length])] at htexts
  exact List.map_injective_iff.mpr (fun _ _ => Json.str.inj) htexts

/-- Texts have no keys. -/
theorem membersDistinct_zip_str (keys texts : List Text) :
    Json.membersDistinct (keys.zip (texts.map .str)) = true := by
  induction keys generalizing texts with
  | nil => rfl
  | cons key keys ih =>
    cases texts with
    | nil => rfl
    | cons text texts => exact Bool.and_eq_true _ _ ▸ ⟨rfl, ih texts⟩

/-- Artifacts have distinct keys. -/
theorem distinctKeys_artifactsOf {hashes : List Text} (h : IsHashes hashes) :
    (artifactsOf hashes).distinctKeys = true := by
  rw [artifactsOf, Json.distinctKeys, membersDistinct_zip_str, Bool.and_true, decide_eq_true_iff,
    keys_artifacts h]
  decide

/-- States have distinct keys. -/
theorem distinctKeys_state {hashes : List Text} (h : IsHashes hashes) {version : Json}
    (hversion : version.distinctKeys = true) :
    (Json.object (stateMembers version (artifactsOf hashes))).distinctKeys = true := by
  simp only [stateMembers, Json.distinctKeys, Json.membersDistinct, hversion,
    distinctKeys_artifactsOf h, Bool.and_true]
  exact decide_eq_true (by decide : [points "schemaVersion", points "artifacts"].Nodup)

/-- States are equal when their hashes are and the version is one. -/
theorem state_equal_iff {version : Json} {hashes others : List Text} (h : IsHashes hashes)
    (h' : IsHashes others) :
    (Json.object (stateMembers version (artifactsOf hashes))).equal (stateOf others) = true ↔
      version.IsOne ∧ hashes = others := by
  have hget (version artifacts : Json) :
      Dict.get? (stateMembers version artifacts) (points "schemaVersion") = some version ∧
        Dict.get? (stateMembers version artifacts) (points "artifacts") = some artifacts := by
    simp [stateMembers, Dict.get?_cons]
  have hsame : (Json.object (stateMembers version (artifactsOf hashes))).same (stateOf others) =
      true ↔ version.same (.int 1) = true ∧
        (artifactsOf hashes).same (artifactsOf others) = true := by
    rw [stateOf, Json.same, Bool.and_eq_true, Json.sameMembers_iff]
    simp only [stateMembers, List.forall_mem_cons] at hget ⊢
    simp only [hget, Option.some.injEq, exists_eq_left', List.length_cons, List.not_mem_nil,
      false_implies, implies_true, and_true, beq_self_eq_true, true_and]
  rw [Json.equal, Bool.and_eq_true, hsame, Json.same_one_iff, decide_eq_true_iff]
  constructor
  · rintro ⟨-, hversion, hartifacts⟩
    exact ⟨hversion, hashes_eq_of_same h h' hartifacts⟩
  · rintro ⟨hversion, rfl⟩
    exact ⟨by simp [Json.numeric], hversion, Json.same_self (distinctKeys_artifactsOf h)⟩

/-- A file is read as the state that it is loaded as, but for the kind of number that is its
version. -/
theorem readState_eq_ok_iff {json : JsonLoads} {files : Files} {path : PurePath} {value : Json} :
    readState json files path = .ok value ↔ ∃ data, files path = .file data ∧
      data.length ≤ MAX_STATE_BYTES ∧ 0 ∉ data ∧ load json data = .ok value ∧
      ∃ version : Json, version.IsOne ∧ IsStateWith version value := by
  have hparse (data : Python.Bytes) : parseState json data = .ok value ↔
      load json data = .ok value ∧ ∃ version : Json, version.IsOne ∧ IsStateWith version value := by
    rw [parseState]
    cases hload : load json data with
    | error error => cases error <;> simp [refuseAll]
    | ok document =>
      cases document with
      | object members =>
        have hdistinct : (Json.object members).distinctKeys = true := by
          rw [load] at hload
          split at hload
          · cases hload
          · exact json.distinctKeys hload
        simp only [Except.ok.injEq]
        by_cases hconvertible : (artifactsMember members).IsConvertible
        · obtain ⟨dictionary, hdictionary⟩ := Json.exists_dictOf_iff.mpr hconvertible
          rw [checkState_eq_ok_iff hdistinct hdictionary]
          constructor
          · rintro ⟨rfl, hstate⟩
            exact ⟨rfl, hstate⟩
          · rintro ⟨rfl, hstate⟩
            exact ⟨rfl, hstate⟩
        · obtain ⟨message, herror⟩ := checkState_of_not_convertible hconvertible
          rw [herror]
          refine iff_of_false (by simp) ?_
          rintro ⟨rfl, version, -, hashes, -, hvalue⟩
          obtain rfl := Json.object.inj hvalue
          refine hconvertible ?_
          simp [artifactsMember, stateMembers, Dict.get?_cons, artifactsOf, Json.IsConvertible]
      | _ =>
        refine iff_of_false (by simp [checkState, refuseAll]) ?_
        rintro ⟨hvalue, version, -, hashes, -, rfl⟩
        cases hvalue
  unfold readState
  cases hnode : files path with
  | file data =>
    dsimp only
    rw [refuseAll, guard_eq_ok_iff, not_or, Nat.not_lt, hparse]
    constructor
    · rintro ⟨⟨hlength, hnul⟩, hvalue⟩
      exact ⟨data, rfl, hlength, hnul, hvalue⟩
    · rintro ⟨other, hother, hlength, hnul, hvalue⟩
      obtain rfl := Node.file.inj hother
      exact ⟨⟨hlength, hnul⟩, hvalue⟩
  | _ => simp [refuseAll]

/-- A comparison with any file passes exactly when the file holds a state with the hashes of the
build, whatever kind of number its version is. -/
theorem compare_with_state_iff (json : JsonLoads) (root path : PurePath)
    (hpath : ¬root.join (points "build") <+: path) (node : Node) (build : Build)
    (attempt : Attempt) :
    (main json root path node ⟨.compare, build, attempt⟩).2 = .ok 0 ↔
      ∃ hashes data version, HasHashes root build hashes ∧ node = .file data ∧
        data.length ≤ MAX_STATE_BYTES ∧ 0 ∉ data ∧ Json.IsOne version ∧
        load json data = .ok (.object (stateMembers version (artifactsOf hashes))) := by
  have hself : (build.withState path node).files path = node := Function.update_self _ _ _
  refine Script.status_eq_zero_iff.trans (Script.compare_isOk_iff.trans ?_)
  simp only [script, collectArtifactHashes_eq_ok_iff, readState_eq_ok_iff, hself,
    hasHashes_withState_iff hpath]
  constructor
  · rintro ⟨_, _, ⟨hashes, hhashes, rfl⟩,
      ⟨data, hnode, hlength, hnul, hload, version, -, others, hothers, rfl⟩, hequal⟩
    obtain ⟨hversion, rfl⟩ := (state_equal_iff hothers (isHashes_of_hasHashes hhashes)).mp hequal
    exact ⟨others, data, version, hhashes, hnode, hlength, hnul, hversion, hload⟩
  · rintro ⟨hashes, data, version, hhashes, hnode, hlength, hnul, hversion, hload⟩
    have hvalid := isHashes_of_hasHashes hhashes
    exact ⟨_, _, ⟨hashes, hhashes, rfl⟩, ⟨data, hnode, hlength, hnul, hload, version, hversion,
      hashes, hvalid, rfl⟩, (state_equal_iff hvalid hvalid).mpr ⟨hversion, rfl⟩⟩

/-- A build with five artifacts of so many spaces each. -/
def uniformBuild (length : ℕ) : Build where
  files _ := .file (List.replicate length 32)
  listing _ := [points "reality-core-0.1.0-20260102.030405-1.pom",
    points "reality-core-0.1.0-20260102.030405-1.module"]
  infolist _ := some [⟨['a'], FIXED_TIME, 0, .ok []⟩]
  sha256 := .ofNumber 64 List.length

/-- The hashes of a build with artifacts of one space. -/
def spaceHashes : List Text := List.replicate 5 ((uniformBuild 1).sha256.hash [32])

/-- The state of a build with artifacts of one space is collected. -/
theorem collectArtifactHashes_uniformBuild :
    collectArtifactHashes (uniformBuild 1) [points "repo"] = .ok (stateOf spaceHashes) := by
  with_unfolding_all rfl

/-- The hashes of a build with artifacts of one space. -/
theorem isHashes_spaceHashes : IsHashes spaceHashes :=
  ⟨rfl, fun _ hhash => List.eq_of_mem_replicate hhash ▸ (uniformBuild 1).sha256.hexdigest_hex _⟩

/-- A build with artifacts of one space has their hashes. -/
theorem hasHashes_uniformBuild_iff {hashes : List Text} :
    HasHashes [points "repo"] (uniformBuild 1) hashes ↔ hashes = spaceHashes := by
  constructor
  · intro h
    have hcollected := collectArtifactHashes_eq_ok_iff.mpr ⟨hashes, h, rfl⟩
    refine stateOf_injective (isHashes_of_hasHashes h) isHashes_spaceHashes ?_
    exact Except.ok.inj (hcollected.symm.trans collectArtifactHashes_uniformBuild)
  · rintro rfl
    obtain ⟨hashes, hhashes, hstate⟩ :=
      collectArtifactHashes_eq_ok_iff.mp collectArtifactHashes_uniformBuild
    rwa [stateOf_injective isHashes_spaceHashes (isHashes_of_hasHashes hhashes) hstate]

/-- A state with the truth value for its version. -/
def trueSpaceState : Json := .object (stateMembers (.bool true) (artifactsOf spaceHashes))

/-- A state with the truth value for its version passes. -/
theorem compare_with_state_iff_true :
    (main (.ofDocument (stateText trueSpaceState) trueSpaceState) [points "repo"]
      [points "repo", points "state.json"] (.file (writtenState trueSpaceState))
        ⟨.compare, uniformBuild 1, .refused⟩).2 = .ok 0 := by
  refine (compare_with_state_iff _ _ _ (by decide) _ _ _).mpr ⟨_, _, _,
    hasHashes_uniformBuild_iff.mpr rfl, rfl, by decide +kernel, by decide +kernel,
    Json.isOne_iff.mpr (.tail _ (.head _)), ?_⟩
  exact load_ofDocument trueSpaceState (distinctKeys_state isHashes_spaceHashes rfl)

/-- The octets of a state that are enough for it: all but the newline at its end. -/
def enoughOctets (state : Json) : ℕ := (stateText state).length - 1

/-- A state that is loaded when it is written. -/
structure IsLoaded (json : JsonLoads) (state : Json) : Prop where
  isState : IsState state
  loadsWritten : json.LoadsWritten noDuplicates (stateText state) state

/-- A state of which a part is written is read when the part is enough for it. -/
theorem readState_written {json : JsonLoads} {path : PurePath} {state : Json}
    (h : IsLoaded json state) (length : ℕ) (found : Json) :
    readState json (fun _ => .file ((writtenState state).take length)) path = .ok found ↔
      enoughOctets state ≤ length ∧ found = state := by
  obtain ⟨hplain, hlength⟩ := stateText_spec h.isState
  have hload : load json ((writtenState state).take length) =
      json.loads noDuplicates ((stateText state).take length) := by
    rw [load, writtenState, Python.take_encodeUtf8 hplain, Python.decodeUtf8_encodeUtf8]
  have hbound : ((writtenState state).take length).length ≤ MAX_STATE_BYTES := by
    refine (List.length_take_le' length _).trans ?_
    rwa [writtenState, Python.length_encodeUtf8 hplain]
  have hnul : 0 ∉ (writtenState state).take length := fun hmem =>
    Python.zero_notMem_encodeUtf8 hplain (List.mem_of_mem_take hmem)
  rw [readState_eq_ok_iff, enoughOctets, Nat.sub_le_iff_le_add, ← h.loadsWritten length found,
    ← hload]
  constructor
  · rintro ⟨data, hfile, -, -, hfound, -⟩
    rwa [← Node.file.inj hfile] at hfound
  · intro hfound
    refine ⟨_, rfl, hbound, hnul, hfound, .int 1, Json.isOne_iff.mpr (.head _), ?_⟩
    rw [hload] at hfound
    rw [((h.loadsWritten length found).mp hfound).2]
    exact h.isState

/-! ## Runs -/

/-- What the script reads at the path of the state. -/
def readNode (json : JsonLoads) (path : PurePath) (node : Node) : Result Json :=
  readState json (fun _ => node) path

/-- The script reads what stands at the path of the state. -/
theorem load_script (json : JsonLoads) (root path : PurePath) (node : Node) (build : Build) :
    (script json root path).load node build = readNode json path node := by
  change readState json (Function.update build.files path node) path = _
  rw [readNode, readState, readState, Function.update_self]

/-- The script keeps what it collects, when the state is stored outside of the build directory. -/
theorem keeps_script (json : JsonLoads) {root path : PurePath}
    (hpath : ¬root.join (points "build") <+: path) :
    (script json root path).Keeps (collected root) enoughOctets (IsLoaded json)
      (Node.Stands (readNode json path) (IsLoaded json)) where
  collect_eq _ _ := collected_withState hpath
  store attempt hstands hgood := hstands.written hgood (by
    rw [enoughOctets, writtenState, Python.length_encodeUtf8 (stateText_spec hgood.isState).1]
    exact Nat.sub_le _ _) (readState_written hgood) attempt
  store_isOk _ attempt hstands := hstands.written_snd _ attempt
  same_iff := by
    intro node kept build current hstands hcollected
    obtain ⟨others, hothers, rfl⟩ := collected_eq_some_iff.mp hcollected
    have hothers := isHashes_of_hasHashes hothers
    simp only [load_script, hstands.read_iff]
    have hsame : ∀ first, kept = some first →
        ((script json root path).same first (stateOf others) = true ↔ first = stateOf others) := by
      intro first hfirst
      obtain ⟨hashes, hhashes, rfl⟩ := (hstands.isGood first hfirst).isState
      change (Json.object (stateMembers (.int 1) (artifactsOf hashes))).equal (stateOf others) =
        true ↔ _
      rw [state_equal_iff hhashes hothers]
      exact ⟨fun h => h.2 ▸ rfl, fun heq =>
        ⟨Json.isOne_iff.mpr (.head _), stateOf_injective hhashes hothers heq⟩⟩
    constructor
    · rintro ⟨first, hfirst, heq⟩
      rw [hfirst, (hsame first hfirst).mp heq]
    · exact fun hkept => ⟨_, hkept, (hsame _ hkept).mpr rfl⟩

/-- Where nothing stands, nothing is kept. -/
theorem stands_missing (json : JsonLoads) (path : PurePath) :
    Node.Stands (readNode json path) (IsLoaded json) .missing none where
  isFile := .inl rfl
  read_iff value := iff_of_false (fun h : refuseAll _ = .ok value => nomatch h) (by simp)
  isGood value h := nomatch h

/-- After any runs, `--compare` passes exactly when the build has the five hashes that were recorded
last: by the last run that began to write a state, if it wrote all of it but perhaps the newline. -/
theorem compare_after_runs (json : JsonLoads) (root path : PurePath)
    (hpath : ¬root.join (points "build") <+: path) (runs : List (Event Build))
    (hloads : ∀ run ∈ runs, ∀ hashes, HasHashes root run.source hashes →
      json.LoadsWritten noDuplicates (stateText (stateOf hashes)) (stateOf hashes))
    (build : Build) (attempt : Attempt) :
    (main json root path (stateAfter json root path runs) ⟨.compare, build, attempt⟩).2 = .ok 0 ↔
      ∃ hashes, HasHashes root build hashes ∧
        RecordedLast (HasHashes root) (fun hashes => enoughOctets (stateOf hashes)) runs
          hashes := by
  refine (keeps_script json hpath).main_after_runs isCaught (fun _ _ => collected_eq_some_iff)
    (fun source other hashes others h h' => ?_) (stands_missing json path) runs
    (fun run hrun hashes h => ?_) build attempt
  · exact stateOf_injective (isHashes_of_hasHashes h') (isHashes_of_hasHashes h)
  · exact ⟨⟨hashes, isHashes_of_hasHashes h, rfl⟩, hloads run hrun hashes h⟩

/-- A build that left nothing. -/
def failedBuild : Build := { uniformBuild 1 with files := fun _ => .missing }

/-- Nothing is collected from a build that left nothing. -/
theorem not_hasHashes_failedBuild (hashes : List Text) :
    ¬HasHashes [points "repo"] failedBuild hashes := by
  intro h
  have hcollected := collectArtifactHashes_eq_ok_iff.mpr ⟨hashes, h, rfl⟩
  have hrefused : collectArtifactHashes failedBuild [points "repo"] =
      refuseAll ("required artifact is missing or is a symlink: " ++
        "build/libs/reality-core-0.1.0-SNAPSHOT.jar") := rfl
  rw [hrefused] at hcollected
  cases hcollected

/-- The path of a state in the repository. -/
def firstState : PurePath := [points "repo", points "ci-state", points "artifacts-first.json"]

/-- A reader of the state of a build with artifacts of one space. -/
def spaceReader : JsonLoads := .ofWritten (stateText (stateOf spaceHashes)) (stateOf spaceHashes)

/-- The reader loads the state of every build that has it. -/
theorem loadsWritten_spaceReader {build : Build} (hbuild : build ∈ [uniformBuild 1, failedBuild])
    {hashes : List Text} (h : HasHashes [points "repo"] build hashes) :
    spaceReader.LoadsWritten noDuplicates (stateText (stateOf hashes)) (stateOf hashes) := by
  simp only [List.mem_cons, List.not_mem_nil, or_false] at hbuild
  rcases hbuild with rfl | rfl
  · rw [hasHashes_uniformBuild_iff.mp h]
    exact JsonLoads.loadsWritten_ofWritten (distinctKeys_state isHashes_spaceHashes rfl)
  · exact absurd h (not_hasHashes_failedBuild hashes)

/-- A run that stores the state of a build with artifacts of one space. -/
def wholeRun : Event Build := ⟨.write, uniformBuild 1, .whole⟩

/-- A run that fails when the file of its state is open and still empty. -/
def cutRun : Event Build := ⟨.write, uniformBuild 1, .cut 0⟩

/-- A failed run keeps the state that is stored, which the next build is compared with; a run that
fails while it writes the same state over leaves none. -/
theorem compare_after_runs_uniformBuild :
    (main spaceReader [points "repo"] firstState
        (stateAfter spaceReader [points "repo"] firstState
          [wholeRun, ⟨.write, failedBuild, .whole⟩])
        ⟨.compare, uniformBuild 1, .refused⟩).2 = .ok 0 ∧
      (main spaceReader [points "repo"] firstState
        (stateAfter spaceReader [points "repo"] firstState [wholeRun, cutRun])
        ⟨.compare, uniformBuild 1, .refused⟩).2 ≠ .ok 0 := by
  have hspace : HasHashes [points "repo"] (uniformBuild 1) spaceHashes :=
    hasHashes_uniformBuild_iff.mpr rfl
  constructor
  · refine (compare_after_runs _ _ _ (by decide) _ (fun run hrun hashes h => ?_) _ _).mpr
      ⟨spaceHashes, hspace, [], wholeRun, _, rfl, ⟨rfl, hspace, trivial⟩, fun later hlater => ?_⟩
    · exact loadsWritten_spaceReader (List.mem_map_of_mem hrun) h
    · rw [List.mem_singleton.mp hlater]
      rintro ⟨-, -, hashes, h⟩
      exact not_hasHashes_failedBuild hashes h
  · refine (compare_after_runs _ _ _ (by decide) _ (fun run hrun hashes h => ?_) _ _).not.mpr ?_
    · have hbuild : run.source = uniformBuild 1 := by
        simp only [List.mem_cons, List.not_mem_nil, or_false] at hrun
        rcases hrun with rfl | rfl <;> rfl
      exact loadsWritten_spaceReader (hbuild ▸ List.mem_cons_self) h
    · rintro ⟨hashes, hhashes, hlast⟩
      obtain rfl := hasHashes_uniformBuild_iff.mp hhashes
      have hlast : RecordedLast _ _ ([wholeRun] ++ [cutRun]) spaceHashes := hlast
      refine Recorder.not_recordedLast_of_cut hspace ?_ hlast
      decide +kernel

end RealityCore.Archive
