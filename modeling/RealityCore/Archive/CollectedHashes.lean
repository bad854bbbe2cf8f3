import RealityCore.Archive.ReadState

/-!
# What is collected from a build

The loop over the artifacts reads each file three times. It collects the hashes of five files that
are there, are short enough and pass their checks, each on its own.
-/

namespace RealityCore.Archive

open Outcome (bind_eq_ok_iff guard_eq_ok_iff map_eq_ok_iff)
open Python (Bytes Dict Json PurePath Text points slash)

/-- The octets of an artifact that is there and passes its check. -/
structure IsArtifact (build : Build) (root : PurePath) (relative : String) (path : PurePath)
    (content : Bytes) : Prop where
  path_eq : artifactPath build root relative = .ok path
  file_eq : build.files path = .file content
  length_le : content.length ≤ MAX_ARTIFACT_BYTES
  valid : validateArtifact build relative path content = .ok ()

/-- A hash that is collected for an artifact. -/
def HasHash (build : Build) (root : PurePath) (relative : String) (hash : Text) : Prop :=
  ∃ path content, IsArtifact build root relative path content ∧ hash = build.sha256.hash content

/-- The hashes that are collected from a build, in order. -/
def HasHashes (root : PurePath) (build : Build) (hashes : List Text) : Prop :=
  List.Forall₂ (HasHash build root) ARTIFACTS hashes

/-- A file is read whole when it is short enough. -/
theorem boundedBytes_eq_ok_iff {build : Build} {path : PurePath} {content : Bytes} :
    boundedBytes build path = .ok content ↔
      build.files path = .file content ∧ content.length ≤ MAX_ARTIFACT_BYTES := by
  unfold boundedBytes
  cases hnode : build.files path with
  | file data =>
    change (if MAX_ARTIFACT_BYTES < data.length then _ else
      if data.length ≠ data.length then _ else Except.ok data) = _ ↔ _
    rw [guard_eq_ok_iff, if_neg (not_not.mpr rfl), Except.ok.injEq, Python.Node.file.injEq,
      Nat.not_lt]
    constructor
    · rintro ⟨hsize, rfl⟩
      exact ⟨rfl, hsize⟩
    · rintro ⟨rfl, hsize⟩
      exact ⟨hsize, rfl⟩
  | unreadable size =>
    change (if MAX_ARTIFACT_BYTES < size then _ else _) = Except.ok content ↔ _
    rw [guard_eq_ok_iff]
    simp
  | _ => simp [Python.Node.fileSize]

/-- One round of the loop sets the hash of an artifact. -/
theorem addArtifact_eq_ok_iff {build : Build} {root : PurePath} {values result : List (Text × Json)}
    {relative : String} :
    addArtifact build root values relative = .ok result ↔
      ∃ hash, HasHash build root relative hash ∧
        result = Dict.set values (points relative) (.str hash) := by
  simp only [addArtifact, bind_eq_ok_iff, guard_eq_ok_iff, boundedBytes_eq_ok_iff, hashFile,
    map_eq_ok_iff]
  constructor
  · rintro ⟨path, hpath, -, content, ⟨hfile, hlength⟩, ⟨⟩, hvalid, hash, ⟨again, ⟨hagain, -⟩, rfl⟩,
      hresult⟩
    obtain rfl := Python.Node.file.inj (hagain.symm.trans hfile)
    exact ⟨_, ⟨path, again, ⟨hpath, hfile, hlength, hvalid⟩, rfl⟩, (Except.ok.inj hresult).symm⟩
  · rintro ⟨hash, ⟨path, content, ⟨hpath, hfile, hlength, hvalid⟩, rfl⟩, rfl⟩
    refine ⟨path, hpath, ?_, content, ⟨hfile, hlength⟩, (), hvalid, _, ⟨content, ⟨hfile, hlength⟩,
      rfl⟩, rfl⟩
    simp [hfile, Python.Node.fileSize]

/-- The loop appends the hashes of its artifacts, when their keys are new and distinct. -/
theorem foldlM_addArtifact_eq_ok_iff {build : Build} {root : PurePath}
    {values result : List (Text × Json)} {relatives : List String} (hnodup : relatives.Nodup)
    (hnew : ∀ relative ∈ relatives, points relative ∉ Dict.keys values) :
    relatives.foldlM (addArtifact build root) values = .ok result ↔
      ∃ hashes, List.Forall₂ (HasHash build root) relatives hashes ∧
        result = values ++ (relatives.map points).zip (hashes.map .str) := by
  induction relatives generalizing values with
  | nil => simp [pure, Except.pure, eq_comm]
  | cons relative relatives ih =>
    obtain ⟨hfirst, hlater⟩ := List.forall_mem_cons.mp hnew
    obtain ⟨hnotMem, hrestNodup⟩ := List.nodup_cons.mp hnodup
    have hstillNew (hash : Text) : ∀ other ∈ relatives,
        points other ∉ Dict.keys (values ++ [(points relative, Json.str hash)]) := by
      intro other hother hmem
      rw [Dict.keys, List.map_append, List.mem_append] at hmem
      rcases hmem with hbefore | hthis
      · exact hlater other hother hbefore
      · exact hnotMem (Python.points_inj.mp (List.mem_singleton.mp hthis) ▸ hother)
    rw [List.foldlM_cons, bind_eq_ok_iff]
    simp only [addArtifact_eq_ok_iff, Dict.set_of_notMem hfirst]
    constructor
    · rintro ⟨_, ⟨hash, hhash, rfl⟩, hrest⟩
      obtain ⟨hashes, hhashes, rfl⟩ := (ih hrestNodup (hstillNew hash)).mp hrest
      refine ⟨hash :: hashes, .cons hhash hhashes, ?_⟩
      rw [List.append_assoc]
      rfl
    · rintro ⟨_, hhashes, rfl⟩
      obtain ⟨hash, hashes, hhash, hrest, rfl⟩ := List.forall₂_cons_left_iff.mp hhashes
      refine ⟨_, ⟨hash, hhash, rfl⟩, (ih hrestNodup (hstillNew hash)).mpr ⟨hashes, hrest, ?_⟩⟩
      rw [List.append_assoc]
      rfl

/-- A state with its hashes. -/
def stateOf (hashes : List Text) : Json := .object (stateMembers (.int 1) (artifactsOf hashes))

/-- A state is collected exactly when it is that of the hashes of a build. -/
theorem collectArtifactHashes_eq_ok_iff {build : Build} {root : PurePath} {state : Json} :
    collectArtifactHashes build root = .ok state ↔
      ∃ hashes, HasHashes root build hashes ∧ state = stateOf hashes := by
  rw [collectArtifactHashes, map_eq_ok_iff]
  have hloop (values : List (Text × Json)) :=
    @foldlM_addArtifact_eq_ok_iff build root [] values ARTIFACTS (by decide)
      fun _ _ => List.not_mem_nil
  simp only [hloop, List.nil_append]
  constructor
  · rintro ⟨_, ⟨hashes, hhashes, rfl⟩, rfl⟩
    exact ⟨hashes, hhashes, rfl⟩
  · rintro ⟨hashes, hhashes, rfl⟩
    exact ⟨_, ⟨hashes, hhashes, rfl⟩, rfl⟩

/-- A path is not absolute. -/
theorem join_points {text : String} (h : (points text).head? ≠ some slash) (path : PurePath) :
    path.join (points text) = path ++ PurePath.components (points text) := if_neg h

/-- A staged file lies in the directory of the version. -/
theorem stagedFile_eq_ok {listing : PurePath → List Text} {root path : PurePath}
    {extension : Extension} (h : stagedFile listing root extension = .ok path) :
    ∃ name, path = root.join
      (points "build/staging/repository/io/github/yu1sh/reality/reality-core/0.1.0-SNAPSHOT") ++
        [name] := by
  have hmem := Outcome.mem_of_only h
  rw [List.mem_insertionSort, List.mem_filter, Python.glob, List.mem_map] at hmem
  obtain ⟨⟨name, -, rfl⟩, -⟩ := hmem
  exact ⟨name, rfl⟩

/-- The artifacts lie in the build directory. -/
theorem artifactPath_eq_ok {build : Build} {root path : PurePath} {relative : String}
    (hrelative : relative ∈ ARTIFACTS) (h : artifactPath build root relative = .ok path) :
    root.join (points "build") <+: path := by
  have hbelow (text : String) (hhead : (points text).head? ≠ some slash)
      (hbuild : PurePath.components (points "build") <+: PurePath.components (points text)) :
      root.join (points "build") <+: root.join (points text) := by
    rw [join_points (by decide), join_points hhead]
    exact (List.prefix_append_right_inj root).mpr hbuild
  have hstaged : root.join (points "build") <+: root.join (points
      "build/staging/repository/io/github/yu1sh/reality/reality-core/0.1.0-SNAPSHOT") :=
    hbelow _ (by decide) (by decide)
  rw [artifactPath] at h
  split at h
  · obtain ⟨name, rfl⟩ := stagedFile_eq_ok h
    exact hstaged.trans (List.prefix_append _ _)
  split at h
  · obtain ⟨name, rfl⟩ := stagedFile_eq_ok h
    exact hstaged.trans (List.prefix_append _ _)
  · obtain rfl := Except.ok.inj h
    have hall : ∀ relative ∈ ARTIFACTS, relative ≠ "staging/reality-core.pom" →
        relative ≠ "staging/reality-core.module" →
        (points relative).head? ≠ some slash ∧
          PurePath.components (points "build") <+: PurePath.components (points relative) := by
      decide
    obtain ⟨hhead, hbuild⟩ := hall relative hrelative ‹_› ‹_›
    exact hbelow relative hhead hbuild

end RealityCore.Archive
