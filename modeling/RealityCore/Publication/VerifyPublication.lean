import RealityCore.Archive.CollectedHashes
import RealityCore.Publication.ReviewedModule
import RealityCore.Publication.ReviewedPom
import RealityCore.Publication.Selection

/-!
# The publication and the recorded hashes

`verify_publication` selects the staged POM and module, and verifies both. Another script hashes the
artifacts of the same build on its own. Where both accept a build, the hashes that one of them
collects are the digests that the module metadata records, and those of the files that the other one
has verified.
-/

namespace RealityCore.Publication

open Archive (ARTIFACTS Build Extension HasHash HasHashes IsArtifact IsHashes artifactPath
  artifactsOf collectArtifactHashes stagedFile stagedName stateOf)
open Outcome (bind_eq_ok_iff guard_eq_ok_iff)
open Python (Bytes Dict Json PurePath Text glob points slash)
open Regex (fullMatch)
open Xml (Element ParserFailure)

/-- `verify_publication(staging)` -/
def verifyPublication (fromString : Bytes → Except ParserFailure Element) (env : Environment)
    (listing : PurePath → List Text) (staging : PurePath) :
    Except Failure (PurePath × PurePath) := do
  let artifactDirectory := (PurePath.parent staging.parent).join (points "libs")
  let pom ← selectOne listing staging .pom
  let module ← selectOne listing staging .module
  verifyPom fromString env.files pom
  verifyModule env module artifactDirectory
  .ok (pom, module)

/-! ## What the hashing script sees -/

/-- The staged file that is verified is the one that is hashed. -/
theorem stagedFile_of_selectOne {listing listing' : PurePath → List Text} {root path : PurePath}
    {extension : Extension} (hlisting : ∀ directory, (listing directory).Perm (listing' directory))
    (h : selectOne listing (root.join (points "build/staging/repository")) extension = .ok path) :
    stagedFile listing' root extension = .ok path := by
  rw [selectOne, versionDirectory_eq] at h
  rw [stagedFile]
  have hperm := perm_candidates extension (hlisting (root.join (points
    "build/staging/repository/io/github/yu1sh/reality/reality-core/0.1.0-SNAPSHOT")))
  have hsorted := (List.perm_insertionSort (· ≤ ·) _).trans
    (hperm.trans (List.perm_insertionSort (· ≤ ·) _).symm)
  rcases Outcome.only_of_perm hsorted _ _ with ⟨found, hverified, hhashed⟩ | ⟨hrefused, -⟩
  · rw [← Except.ok.inj (hverified.symm.trans h)]
    exact hhashed
  · rw [hrefused] at h
    cases h

/-- The directory of the artifacts that are verified is that of the artifacts that are hashed. -/
theorem artifactDirectory_eq (root : PurePath) :
    (PurePath.parent (PurePath.parent (root.join (points "build/staging/repository")))).join
      (points "libs") = root ++ [points "build", points "libs"] := by
  have hstaging : root.join (points "build/staging/repository") =
      root ++ [points "build"] ++ [points "staging"] ++ [points "repository"] := by
    rw [Archive.join_points (by decide), List.append_assoc, List.append_assoc]
    congr 1
  rw [hstaging, PurePath.parent_append, PurePath.parent_append, Archive.join_points (by decide),
    List.append_assoc]
  congr 1

/-- An artifact has one hash. -/
theorem hash_unique {build : Build} {root : PurePath} {relative : String} {hash other : Text}
    (h : HasHash build root relative hash) (h' : HasHash build root relative other) :
    hash = other := by
  obtain ⟨path, content, hartifact, rfl⟩ := h
  obtain ⟨path', content', hartifact', rfl⟩ := h'
  obtain rfl := Except.ok.inj (hartifact.path_eq.symm.trans hartifact'.path_eq)
  rw [Python.Node.file.inj (hartifact.file_eq.symm.trans hartifact'.file_eq)]

/-- The artifacts of a state with their hashes. -/
def artifactMembers (hashes : List Text) : List (Text × Json) :=
  (ARTIFACTS.map points).zip (hashes.map .str)

/-- The artifacts of a state are those of its build, each with its hash. -/
theorem mem_artifactMembers_iff {build : Build} {root : PurePath} {hashes : List Text}
    (h : HasHashes root build hashes) {key : Text} {value : Json} :
    (key, value) ∈ artifactMembers hashes ↔ ∃ relative ∈ ARTIFACTS, ∃ hash, key = points relative ∧
      value = .str hash ∧ HasHash build root relative hash := by
  rw [artifactMembers, List.zip_map]
  constructor
  · intro hmem
    obtain ⟨⟨relative, hash⟩, hpair, heq⟩ := List.mem_map.mp hmem
    obtain ⟨rfl, rfl⟩ := Prod.mk.inj heq
    exact ⟨relative, (List.of_mem_zip hpair).1, hash, rfl, rfl,
      (List.forall₂_iff_zip.mp h).2 hpair⟩
  · rintro ⟨relative, hrelative, hash, rfl, rfl, hhash⟩
    obtain ⟨i, hi, rfl⟩ := List.mem_iff_getElem.mp hrelative
    have hi' : i < hashes.length := h.length_eq ▸ hi
    have hother : HasHash build root ARTIFACTS[i] hashes[i] := h.get hi hi'
    refine List.mem_map.mpr ⟨(ARTIFACTS[i], hashes[i]), ?_, ?_⟩
    · refine List.mem_iff_getElem.mpr ⟨i, ?_, List.getElem_zip⟩
      rw [List.length_zip]
      exact lt_min hi hi'
    · rw [hash_unique hhash hother]
      rfl

/-- The hash of the file at the path of an artifact is in the state. -/
theorem mem_artifactMembers_of_path {build : Build} {root path : PurePath} {hashes : List Text}
    {relative : String} {content : Bytes} (h : HasHashes root build hashes)
    (hrelative : relative ∈ ARTIFACTS) (hpath : artifactPath build root relative = .ok path)
    (hfile : build.files path = .file content) :
    (points relative, .str (build.sha256.hash content)) ∈ artifactMembers hashes := by
  obtain ⟨hash, -, hhash⟩ := Outcome.exists_of_forall₂_left h hrelative
  have hmem := (mem_artifactMembers_iff h).mpr ⟨relative, hrelative, hash, rfl, rfl, hhash⟩
  obtain ⟨found, data, hartifact, rfl⟩ := hhash
  obtain rfl := Except.ok.inj (hpath.symm.trans hartifact.path_eq)
  rwa [Python.Node.file.inj (hfile.symm.trans hartifact.file_eq)]

/-! ## What the module metadata records -/

/-- The metadata records a file with this name and this digest. -/
def RecordsDigest (document : List (Text × Json)) (name digest : Text) : Prop :=
  ∃ variants variant files record, Dict.get? document (points "variants") = some (.list variants) ∧
    Json.object variant ∈ variants ∧ Dict.get? variant (points "files") = some (.list files) ∧
    Json.object record ∈ files ∧ Dict.get? record (points "name") = some (.str name) ∧
    Dict.get? record (points "sha256") = some (.str digest)

/-- The members of the record of a file. -/
theorem get?_artifactRecord (env : Environment) (file : String) (content : Bytes) :
    Dict.get? (artifactRecord env file content) (points "name") = some (.str (points file)) ∧
      Dict.get? (artifactRecord env file content) (points "sha256") =
        some (.str ((env.hashers .sha256).hash content)) := by
  simp [artifactRecord, textMember, Dict.get?_cons, ALGORITHMS, Algorithm.name]

/-- A variant has one file. -/
theorem get?_reviewedVariant {name : String} {attributes record : List (Text × Json)}
    {variant : List (Text × Json)}
    (h : Json.object variant = reviewedVariant name attributes record) :
    Dict.get? variant (points "files") = some (.list [.object record]) := by
  rw [Json.object.inj h]
  simp [textMember, Dict.get?_cons]

/-- Accepted metadata records the files that are expected, with the digests of their octets. -/
theorem recordsDigest_iff {env : Environment} {artifactDirectory : PurePath}
    {document : List (Text × Json)} (h : verifyDocument env artifactDirectory document = .ok ())
    {name digest : Text} :
    RecordsDigest document name digest ↔ ∃ expected ∈ EXPECTED_VARIANTS, ∃ content,
      name = points expected.file ∧
      env.files (artifactDirectory ++ [points expected.file]) = .file content ∧
      digest = (env.hashers .sha256).hash content := by
  obtain ⟨variants, rfl, hvariants⟩ := verifyDocument_eq_ok h
  have hcomponents : ∀ expected ∈ EXPECTED_VARIANTS,
      PurePath.IsComponent (points expected.file) := by decide
  have hexact := Outcome.forall₂_imp_of_mem hvariants.flip fun expected variant hmem hround =>
    verifyVariant_eq_ok (hcomponents expected hmem) hround
  have hget : Dict.get? (reviewedModule variants) (points "variants") = some (.list variants) := by
    simp [reviewedModule, textMember, Dict.get?_cons]
  constructor
  · rintro ⟨found, variant, files, record, hfound, hvariant, hfiles, hrecord, hname, hdigest⟩
    obtain rfl := Json.list.inj (Option.some.inj (hget.symm.trans hfound))
    obtain ⟨expected, hexpected, attributes, content, heq, -, hcontent⟩ :=
      Outcome.exists_of_forall₂_right hexact hvariant
    rw [get?_reviewedVariant heq, Option.some_inj, Json.list.injEq] at hfiles
    rw [← hfiles, List.mem_singleton, Json.object.injEq] at hrecord
    obtain ⟨hrecordName, hrecordDigest⟩ := get?_artifactRecord env expected.file content
    rw [hrecord, hrecordName, Option.some_inj, Json.str.injEq] at hname
    rw [hrecord, hrecordDigest, Option.some_inj, Json.str.injEq] at hdigest
    exact ⟨expected, hexpected, content, hname.symm, hcontent, hdigest.symm⟩
  · rintro ⟨expected, hexpected, content, rfl, hcontent, rfl⟩
    obtain ⟨variant, hvariant, attributes, content', rfl, -, hcontent'⟩ :=
      Outcome.exists_of_forall₂_left hexact hexpected
    obtain rfl := Python.Node.file.inj (hcontent.symm.trans hcontent')
    obtain ⟨hrecordName, hrecordDigest⟩ := get?_artifactRecord env expected.file content
    exact ⟨variants, _, _, _, hget, hvariant, get?_reviewedVariant rfl, List.mem_singleton_self _,
      hrecordName, hrecordDigest⟩

/-! ## Agreement -/

/-- The key of an artifact in the directory that the metadata records files of. -/
def artifactKey (name : Text) : Text := points "build/libs/" ++ name

/-- The artifacts in the directory are the files that are expected. -/
theorem exists_expected_of_artifactKey {relative : String} (hrelative : relative ∈ ARTIFACTS)
    {name : Text} (hname : artifactKey name = points relative) :
    ∃ expected ∈ EXPECTED_VARIANTS, name = points expected.file := by
  have hall : ∀ relative ∈ ARTIFACTS, points "build/libs/" <+: points relative →
      ∃ expected ∈ EXPECTED_VARIANTS, points relative = artifactKey (points expected.file) := by
    decide +kernel
  obtain ⟨expected, hexpected, heq⟩ := hall relative hrelative (hname ▸ List.prefix_append _ _)
  exact ⟨expected, hexpected, List.append_cancel_left (hname.trans heq)⟩

/-- The files that are expected are artifacts, which lie in the directory. -/
theorem exists_artifact_of_expected {expected : ExpectedVariant}
    (hexpected : expected ∈ EXPECTED_VARIANTS) : ∃ relative ∈ ARTIFACTS,
      artifactKey (points expected.file) = points relative ∧ ∀ build root,
        artifactPath build root relative =
          .ok (root ++ [points "build", points "libs"] ++ [points expected.file]) := by
  have hall : ∀ expected ∈ EXPECTED_VARIANTS, ∃ relative ∈ ARTIFACTS,
      artifactKey (points expected.file) = points relative ∧
        relative ≠ "staging/reality-core.pom" ∧ relative ≠ "staging/reality-core.module" ∧
        (points relative).head? ≠ some slash ∧ PurePath.components (points relative) =
          [points "build", points "libs"] ++ [points expected.file] := by decide +kernel
  obtain ⟨relative, hrelative, hkey, hpom, hmodule, hhead, hcomponents⟩ := hall expected hexpected
  refine ⟨relative, hrelative, hkey, fun build root => ?_⟩
  rw [artifactPath, if_neg hpom, if_neg hmodule, Archive.join_points hhead, hcomponents,
    List.append_assoc]

/-- A POM that is verified is a file. -/
theorem exists_file_of_verifyPom {fromString : Bytes → Except ParserFailure Element}
    {files : Python.Files} {path : PurePath} (h : verifyPom fromString files path = .ok ()) :
    ∃ data, files path = .file data := by
  rw [verifyPom] at h
  cases hread : read files path with
  | ok data => exact ⟨data, (read_eq_ok_iff.mp hread).1⟩
  | error failure =>
    rw [hread] at h
    cases failure <;> cases h

/-- When a publication is verified and the hashes of its build are collected, the files that the
metadata records are the artifacts in the directory, with the same digests, and the staged files
that are hashed are those that were verified. -/
theorem verified_files_are_hashed (fromString : Bytes → Except ParserFailure Element)
    (env : Environment) (listing : PurePath → List Text) (build : Build)
    (root pom module : PurePath)
    (hfiles : env.files = build.files)
    (hlisting : ∀ directory, (listing directory).Perm (build.listing directory))
    (hsha256 : ∀ data, (env.hashers .sha256).hash data = build.sha256.hash data)
    (hverified : verifyPublication fromString env listing
      (root.join (points "build/staging/repository")) = .ok (pom, module)) :
    ∃ document pomData moduleData, readJson env module = .ok document ∧
      env.files pom = .file pomData ∧ env.files module = .file moduleData ∧
      ∀ state, collectArtifactHashes build root = .ok state → ∃ hashes, state = stateOf hashes ∧
        (∀ name digest, RecordsDigest document name digest ↔
          (artifactKey name, .str digest) ∈ artifactMembers hashes) ∧
        (points "staging/reality-core.pom", .str (build.sha256.hash pomData)) ∈
          artifactMembers hashes ∧
        (points "staging/reality-core.module", .str (build.sha256.hash moduleData)) ∈
          artifactMembers hashes := by
  simp only [verifyPublication, bind_eq_ok_iff] at hverified
  obtain ⟨pom', hpom, module', hmodule, ⟨⟩, hverifiedPom, ⟨⟩, hverifiedModule, heq⟩ := hverified
  obtain ⟨rfl, rfl⟩ := Prod.mk.inj (Except.ok.inj heq)
  rw [artifactDirectory_eq] at hverifiedModule
  obtain ⟨document, hread, hdocument⟩ := bind_eq_ok_iff.mp hverifiedModule
  obtain ⟨moduleData, -, hmoduleFile, -⟩ := readJson_eq_ok_iff.mp hread
  obtain ⟨pomData, hpomFile⟩ := exists_file_of_verifyPom hverifiedPom
  refine ⟨document, pomData, moduleData, hread, hpomFile, hmoduleFile, fun state hstate => ?_⟩
  obtain ⟨hashes, hhashes, rfl⟩ := Archive.collectArtifactHashes_eq_ok_iff.mp hstate
  refine ⟨hashes, rfl, fun name digest => ?_, ?_, ?_⟩
  · rw [recordsDigest_iff hdocument, mem_artifactMembers_iff hhashes]
    constructor
    · rintro ⟨expected, hexpected, content, rfl, hcontent, rfl⟩
      obtain ⟨relative, hrelative, hkey, hpath⟩ := exists_artifact_of_expected hexpected
      obtain ⟨hash, -, path, data, hartifact, rfl⟩ :=
        Outcome.exists_of_forall₂_left hhashes hrelative
      obtain rfl := Except.ok.inj ((hpath build root).symm.trans hartifact.path_eq)
      obtain rfl := Python.Node.file.inj (hartifact.file_eq.symm.trans (hfiles ▸ hcontent))
      exact ⟨relative, hrelative, _, hkey, congrArg Json.str (hsha256 data), _, data, hartifact,
        rfl⟩
    · rintro ⟨relative, hrelative, hash, hkey, hvalue, path, content, hartifact, rfl⟩
      obtain ⟨expected, hexpected, rfl⟩ := exists_expected_of_artifactKey hrelative hkey
      obtain ⟨relative', -, hkey', hpath⟩ := exists_artifact_of_expected hexpected
      obtain rfl := Python.points_inj.mp (hkey.symm.trans hkey')
      obtain rfl := Except.ok.inj ((hpath build root).symm.trans hartifact.path_eq)
      exact ⟨expected, hexpected, content, rfl, hfiles ▸ hartifact.file_eq,
        (Json.str.inj hvalue).trans (hsha256 content).symm⟩
  · exact mem_artifactMembers_of_path hhashes (by decide) (stagedFile_of_selectOne hlisting hpom)
      (hfiles ▸ hpomFile)
  · exact mem_artifactMembers_of_path hhashes (by decide)
      (stagedFile_of_selectOne hlisting hmodule) (hfiles ▸ hmoduleFile)

/-! ## A build -/

/-- A build that left these files. -/
def abcBuild : Build where
  files := abcFiles
  listing _ := [abcModule.name, abcPom.name]
  infolist _ := some [⟨['a'], Archive.FIXED_TIME, 0, .ok []⟩]
  sha256 := abcHasher .sha256

theorem files_abcPom : abcFiles abcPom = .file abc := by
  rw [abcFiles, if_pos rfl]

/-- The POM of this build is accepted, where it is read as the published tree. -/
theorem verifyPom_abc : verifyPom (fun _ => .ok publishedPom) abcFiles abcPom = .ok () := by
  have hread : read abcFiles abcPom = .ok abc :=
    read_eq_ok_iff.mpr ⟨files_abcPom, by decide, by decide⟩
  rw [verifyPom, hread]
  exact verifyPomTree_eq_ok_iff.mpr rfl

/-- An archive of this build. -/
theorem files_abcLibs {path : PurePath} (h : path.parent = abcLibs) :
    abcFiles path = .file abc := by
  have hpom : path ≠ abcPom := by
    rintro rfl
    exact absurd h (by decide)
  have hmodule : path ≠ abcModule := by
    rintro rfl
    exact absurd h (by decide)
  rw [abcFiles, if_neg hpom, if_neg hmodule, if_pos h]

/-- The staged files are selected. -/
theorem selectOne_abc :
    selectOne abcBuild.listing (PurePath.join [points "repo"] (points "build/staging/repository"))
        .pom = .ok abcPom ∧
      selectOne abcBuild.listing
        (PurePath.join [points "repo"] (points "build/staging/repository")) .module =
          .ok abcModule := by
  decide

/-- The publication is verified. -/
theorem verifyPublication_abc :
    verifyPublication (fun _ => .ok publishedPom) abcEnvironment abcBuild.listing
      (PurePath.join [points "repo"] (points "build/staging/repository")) =
        .ok (abcPom, abcModule) := by
  simp only [verifyPublication, bind_eq_ok_iff, artifactDirectory_eq]
  exact ⟨abcPom, selectOne_abc.1, abcModule, selectOne_abc.2, (), verifyPom_abc, (),
    verifyModule_abc, rfl⟩

/-- The module of this build has no content that is refused. -/
theorem validateContent_abcText : Archive.validateContent (Python.encodeUtf8 abcText)
    "staging/reality-core.module".toList false = .ok () := by
  obtain ⟨-, hharmless, hstamp⟩ := abcText_plain
  rw [Archive.validateContent_eq_ok_iff, ← Archive.search_TIMESTAMP_RE_isSome_iff, hstamp]
  exact ⟨Archive.otherwiseRefused_eq_false hharmless _, Bool.false_ne_true⟩

/-- The octets of an artifact of this build. -/
def abcContent (relative : String) : Bytes :=
  if relative = "staging/reality-core.module" then Python.encodeUtf8 abcText else abc

/-- The artifacts of this build are hashed. -/
theorem hasHash_abcBuild : ∀ relative ∈ ARTIFACTS,
    HasHash abcBuild [points "repo"] relative (abcBuild.sha256.hash (abcContent relative)) := by
  have hjar (relative : String) (path : PurePath) (hrelative : abcContent relative = abc)
      (hpath : artifactPath abcBuild [points "repo"] relative = .ok path)
      (hlibs : path.parent = abcLibs)
      (hvalid : Archive.validateArtifact abcBuild relative path abc = .ok ()) :
      HasHash abcBuild [points "repo"] relative (abcBuild.sha256.hash (abcContent relative)) :=
    ⟨path, abc, ⟨hpath, files_abcLibs hlibs, by decide, hvalid⟩, by rw [hrelative]⟩
  have hpom : abcContent "staging/reality-core.pom" = abc := if_neg (by decide)
  have hmodule : abcContent "staging/reality-core.module" = Python.encodeUtf8 abcText := if_pos rfl
  have hlength : (Python.encodeUtf8 abcText).length ≤ Archive.MAX_ARTIFACT_BYTES :=
    abcText_plain.1.trans (by decide)
  have hcontent : Archive.validateArtifact abcBuild "staging/reality-core.module" abcModule
      (Python.encodeUtf8 abcText) = .ok () := by
    rw [Archive.validateArtifact, if_neg (by decide)]
    exact validateContent_abcText
  simp only [ARTIFACTS, List.forall_mem_cons]
  refine ⟨hjar _ _ (if_neg (by decide)) rfl rfl rfl, hjar _ _ (if_neg (by decide)) rfl rfl rfl,
    hjar _ _ (if_neg (by decide)) rfl rfl rfl, ?_, ?_, fun _ h => nomatch h⟩
  · exact ⟨abcPom, abc, ⟨stagedFile_of_selectOne (fun _ => .refl _) selectOne_abc.1, files_abcPom,
      by decide, by decide⟩, by rw [hpom]⟩
  · exact ⟨abcModule, _, ⟨stagedFile_of_selectOne (fun _ => .refl _) selectOne_abc.2,
      files_abcModule, hlength, hcontent⟩, by rw [hmodule]⟩

/-- The state of this build is collected. -/
theorem collectArtifactHashes_abcBuild : collectArtifactHashes abcBuild [points "repo"] =
    .ok (stateOf (ARTIFACTS.map fun relative => abcBuild.sha256.hash (abcContent relative))) := by
  refine Archive.collectArtifactHashes_eq_ok_iff.mpr ⟨_, ?_, rfl⟩
  rw [HasHashes, List.forall₂_map_right_iff, List.forall₂_same]
  exact hasHash_abcBuild

/-- The publication is verified, and the state that is collected from its build has the digest that
the metadata records for an archive. -/
theorem verified_files_are_hashed_abc :
    RecordsDigest abcMembers (points "reality-core-0.1.0-SNAPSHOT.jar")
        ((abcHasher .sha256).hash abc) ∧
      ∃ hashes, collectArtifactHashes abcBuild [points "repo"] = .ok (stateOf hashes) ∧
        (artifactKey (points "reality-core-0.1.0-SNAPSHOT.jar"),
          .str ((abcHasher .sha256).hash abc)) ∈ artifactMembers hashes := by
  obtain ⟨document, _, _, hread, -, -, hstates⟩ :=
    verified_files_are_hashed (fun _ => .ok publishedPom) abcEnvironment abcBuild.listing abcBuild
      [points "repo"] abcPom abcModule rfl (fun _ => List.Perm.refl _) (fun _ => rfl)
      verifyPublication_abc
  obtain rfl := Except.ok.inj (readJson_abcModule.symm.trans hread)
  obtain ⟨document, hread', hdocument⟩ := bind_eq_ok_iff.mp verifyModule_abc
  obtain rfl := Except.ok.inj (hread.symm.trans hread')
  have hfile : abcFiles (abcLibs ++ [points "reality-core-0.1.0-SNAPSHOT.jar"]) = .file abc :=
    files_abcLibs rfl
  have hrecords : RecordsDigest abcMembers (points "reality-core-0.1.0-SNAPSHOT.jar")
      ((abcHasher .sha256).hash abc) :=
    (recordsDigest_iff hdocument).mpr ⟨_, List.mem_cons_self, abc, rfl, hfile, rfl⟩
  obtain ⟨hashes, hstate, hiff, -⟩ := hstates _ collectArtifactHashes_abcBuild
  exact ⟨hrecords, hashes, hstate ▸ collectArtifactHashes_abcBuild, (hiff _ _).mp hrecords⟩

end RealityCore.Publication
