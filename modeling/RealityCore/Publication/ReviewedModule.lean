import RealityCore.Archive.Content
import RealityCore.Publication.Module

/-!
# The accepted module metadata

The checks leave one document, but for the order of the attributes of a variant and for the kind of
the number that is the version of Java. The record of a file has the size and the digests of all its
octets, however many chunks they are read in.
-/

namespace RealityCore.Publication

open Outcome (bind_eq_ok_iff guard_eq_ok_iff)
open Python (Bytes Dict Json Number PurePath Text decodeUtf8 flatten_readChunks points readChunks)

/-! ## The document -/

/-- The record of a file with its octets. -/
def artifactRecord (env : Environment) (file : String) (content : Bytes) : List (Text × Json) :=
  [textMember "name" file, textMember "url" file, (points "size", .int content.length)] ++
    ALGORITHMS.map fun algorithm =>
      (points algorithm.name, .str ((env.hashers algorithm).hash content))

/-- A variant with its attributes and the record of its only file. -/
def reviewedVariant (name : String) (attributes record : List (Text × Json)) : Json :=
  .object [textMember "name" name, (points "attributes", .object attributes),
    (points "files", .list [.object record])]

/-- The members of a document with its variants. -/
def reviewedModule (variants : List Json) : List (Text × Json) :=
  [textMember "formatVersion" "1.1", (points "component", .object COMPONENT),
    (points "createdBy", .object [(points "gradle", .object [textMember "version" "8.8"])]),
    (points "variants", .list variants)]

/-- The attributes of a library variant in some order. The version of Java is a number. -/
def IsLibrary (attributes : List (Text × Json)) (usage : String) : Prop :=
  ∃ version : Json, version.numeric = some (Number.ofInt 17) ∧
    attributes.Perm (libraryAttributes version usage)

/-! ## Members -/

/-- What is found under a key. -/
theorem item_eq_ok_iff {dictionary : List (Text × Json)} {key : String} {value : Json} :
    item dictionary key = .ok value ↔ Dict.get? dictionary (points key) = some value := by
  rw [item]
  cases Dict.get? dictionary (points key) <;> simp

/-- A dictionary with the keys of a list is known by what it holds under these keys. -/
theorem eq_of_hasKeys {dictionary : List (Text × Json)} {keys : List String}
    (members : List (String × Json)) (hkeys : hasKeys dictionary keys = true)
    (hmembers : members.map Prod.fst = keys) (hnodup : keys.Nodup)
    (h : ∀ member ∈ members, item dictionary member.1 = .ok member.2) :
    dictionary = members.map fun member => (points member.1, member.2) := by
  have hpoints : Dict.keys (members.map fun member => (points member.1, member.2)) =
      keys.map points := by
    rw [← hmembers, Dict.keys, List.map_map, List.map_map]
    rfl
  refine Dict.eq_of_get? ?_ ?_ ?_
  · rw [hpoints]
    exact eq_of_beq hkeys
  · rw [hpoints]
    exact hnodup.map fun _ _ => Python.points_inj.mp
  · intro found hfound
    obtain ⟨member, hmember, rfl⟩ := List.mem_map.mp hfound
    exact item_eq_ok_iff.mp (h member hmember)

/-! ## Digests -/

/-- The loop over chunks counts and hashes all of them. -/
theorem foldlM_addChunk {env : Environment} {path : PurePath} {chunks : List Bytes}
    {state result : ℕ × Digests env} (h : chunks.foldlM (addChunk env path) state = .ok result) :
    result = (state.1 + chunks.flatten.length, fun algorithm =>
      (env.hashers algorithm).update (state.2 algorithm) chunks.flatten) := by
  induction chunks generalizing state with
  | nil =>
    cases h
    simp only [List.flatten_nil, List.length_nil, Nat.add_zero, Python.Hasher.update_nil]
  | cons chunk chunks ih =>
    rw [List.foldlM_cons, bind_eq_ok_iff] at h
    obtain ⟨between, hround, hrest⟩ := h
    rw [addChunk, rejectAt, guard_eq_ok_iff] at hround
    rw [ih hrest, ← Except.ok.inj hround.2, List.flatten_cons, List.length_append, Nat.add_assoc]
    simp only [Python.Hasher.update_append]

/-- The digests of a file are those of all its octets. -/
theorem artifactDigests_eq_ok {env : Environment} {path : PurePath} {actual : List (Text × Json)}
    (h : artifactDigests env path = .ok actual) :
    ∃ content, env.files path = .file content ∧
      actual = (points "size", .int content.length) :: ALGORITHMS.map fun algorithm =>
        (points algorithm.name, .str ((env.hashers algorithm).hash content)) := by
  unfold artifactDigests at h
  cases hnode : env.files path with
  | file content =>
    simp only [hnode, Python.Node.fileSize, rejectAt, guard_eq_ok_iff, bind_eq_ok_iff] at h
    obtain ⟨-, ⟨size, digests⟩, hloop, -, hactual⟩ := h
    have hresult := foldlM_addChunk hloop
    rw [flatten_readChunks (by decide), Nat.zero_add] at hresult
    obtain ⟨rfl, rfl⟩ := Prod.mk.inj hresult
    exact ⟨content, rfl, (Except.ok.inj hactual).symm⟩
  | unreadable size => simp [hnode, Python.Node.fileSize, rejectAt, guard_eq_ok_iff] at h
  | _ => simp [hnode, Python.Node.fileSize, rejectAt] at h

/-- A record that passes the comparison holds values equal to the size and to the digests. -/
theorem verifyHashes_eq_ok {env : Environment} {artifactDirectory : PurePath}
    {file : List (Text × Json)} {name : Text} (hname : PurePath.IsComponent name)
    (h : verifyHashes env artifactDirectory file name = .ok ()) :
    ∃ content, env.files (artifactDirectory ++ [name]) = .file content ∧
      (∃ size, item file "size" = .ok size ∧ Json.same (.int content.length) size = true) ∧
      ∀ algorithm ∈ ALGORITHMS, ∃ digest, item file algorithm.name = .ok digest ∧
        Json.same (.str ((env.hashers algorithm).hash content)) digest = true := by
  simp only [verifyHashes, PurePath.join_eq hname, PurePath.parent_append, ne_eq,
    not_true_eq_false, if_false, bind_eq_ok_iff, ite_not] at h
  obtain ⟨actual, hactual, expected, hexpected, h⟩ := h
  have hsame : Json.same (.object actual) (.object expected) = true := by
    by_contra hdiffer
    rw [if_neg fun hequal => hdiffer (Json.same_of_equal hequal)] at h
    cases h
  rw [Json.same, Bool.and_eq_true, Json.sameMembers_iff] at hsame
  have hfound : ∀ key value, Dict.get? expected (points key) = some value →
      item file key = .ok value := by
    intro key value hget
    obtain ⟨other, -, hother⟩ := Outcome.exists_of_forall₂_right
      (Outcome.mapM_eq_ok_iff.mp hexpected) (Dict.mem_of_get? hget)
    obtain ⟨found, hitem, hpair⟩ := bind_eq_ok_iff.mp hother
    obtain ⟨hkey, rfl⟩ := Prod.mk.inj (Except.ok.inj hpair)
    rwa [← Python.points_inj.mp hkey]
  obtain ⟨content, hfile, rfl⟩ := artifactDigests_eq_ok hactual
  refine ⟨content, hfile, ?_, fun algorithm halgorithm => ?_⟩
  · obtain ⟨size, hget, hsize⟩ := hsame.2 _ List.mem_cons_self
    exact ⟨size, hfound _ _ hget, hsize⟩
  · obtain ⟨digest, hget, hdigest⟩ :=
      hsame.2 _ (List.mem_cons_of_mem _ (List.mem_map_of_mem halgorithm))
    exact ⟨digest, hfound _ _ hget, hdigest⟩

/-- The record of a file that passes its checks is that of the whole file. -/
theorem verifyFile_eq_ok {env : Environment} {artifactDirectory : PurePath}
    {expected : ExpectedVariant} {file : List (Text × Json)}
    (hname : PurePath.IsComponent (points expected.file))
    (h : verifyFile env artifactDirectory expected file = .ok ()) :
    ∃ content, env.files (artifactDirectory ++ [points expected.file]) = .file content ∧
      file = artifactRecord env expected.file content := by
  simp only [verifyFile, reject, guard_eq_ok_iff, bind_eq_ok_iff, not_not, not_or] at h
  obtain ⟨hkeys, name, hnameItem, url, hurl, size, hsize, ⟨hequal, hint⟩, hexpected, ⟨⟩, -,
    hhashes⟩ := h
  obtain ⟨content, hfile, ⟨size', hsize', hlength⟩, hhash⟩ := verifyHashes_eq_ok hname hhashes
  obtain rfl : name = .str (points expected.file) :=
    Json.isRigid_str _ _ (Json.same_of_equal hexpected)
  obtain rfl : url = .str (points expected.file) := Json.eq_of_same_str (Json.same_of_equal hequal)
  obtain rfl : size' = size := Except.ok.inj (hsize'.symm.trans hsize)
  obtain rfl : size' = .int content.length := by
    cases size' with
    | int n => rw [Json.same_int_int_iff.mp hlength]
    | _ => exact absurd rfl hint
  have hdigest : ∀ algorithm ∈ ALGORITHMS, item file algorithm.name =
      .ok (.str ((env.hashers algorithm).hash content)) := by
    intro algorithm halgorithm
    obtain ⟨digest, hitem, hsame⟩ := hhash algorithm halgorithm
    rw [hitem, Json.eq_of_same_str hsame]
  refine ⟨content, hfile, ?_⟩
  refine eq_of_hasKeys ([("name", .str (points expected.file)),
      ("url", .str (points expected.file)), ("size", .int content.length)] ++
    ALGORITHMS.map fun algorithm => (algorithm.name, .str ((env.hashers algorithm).hash content)))
    hkeys rfl (by decide) ?_
  intro member hmember
  rcases List.mem_append.mp hmember with hfront | hback
  · simp only [List.mem_cons, List.not_mem_nil, or_false] at hfront
    rcases hfront with rfl | rfl | rfl
    · exact hnameItem
    · exact hurl
    · exact hsize
  · obtain ⟨algorithm, halgorithm, rfl⟩ := List.mem_map.mp hback
    exact hdigest algorithm halgorithm

/-! ## Variants -/

/-- A variant that passes its checks has the expected members only. -/
theorem verifyMembers_eq_ok {env : Environment} {artifactDirectory : PurePath}
    {expected : ExpectedVariant} {variant : List (Text × Json)}
    (hname : PurePath.IsComponent (points expected.file))
    (h : verifyMembers env artifactDirectory expected variant = .ok ()) :
    ∃ attributes content,
      Json.object variant = reviewedVariant expected.name attributes
        (artifactRecord env expected.file content) ∧
      Json.same (.object attributes) (.object expected.attributes) = true ∧
      env.files (artifactDirectory ++ [points expected.file]) = .file content := by
  simp only [verifyMembers, reject, guard_eq_ok_iff, bind_eq_ok_iff, not_not, not_or] at h
  obtain ⟨hkeys, name, hnameItem, attributes, hattributes, files, hfiles, ⟨hexpected, hequal⟩, -, -,
    -, h⟩ := h
  obtain rfl : name = .str (points expected.name) :=
    Json.isRigid_str _ _ (Json.same_of_equal hexpected)
  have hsame := Json.same_of_equal hequal
  obtain ⟨attributes, rfl⟩ := Json.object_of_same hsame
  split at h
  · next file =>
    obtain ⟨content, hfile, rfl⟩ := verifyFile_eq_ok hname h
    refine ⟨attributes, content, congrArg Json.object ?_, hsame, hfile⟩
    refine eq_of_hasKeys [("name", .str (points expected.name)),
      ("attributes", .object attributes),
      ("files", .list [.object (artifactRecord env expected.file content)])] hkeys rfl
      (by decide) ?_
    intro member hmember
    simp only [List.mem_cons, List.not_mem_nil, or_false] at hmember
    rcases hmember with rfl | rfl | rfl
    · exact hnameItem
    · exact hattributes
    · exact hfiles
  · cases h

/-- A variant that passes its checks is an object with the expected members only. -/
theorem verifyVariant_eq_ok {env : Environment} {artifactDirectory : PurePath} {variant : Json}
    {expected : ExpectedVariant} (hname : PurePath.IsComponent (points expected.file))
    (h : verifyVariant env artifactDirectory (variant, expected) = .ok ()) :
    ∃ attributes content,
      variant = reviewedVariant expected.name attributes
        (artifactRecord env expected.file content) ∧
      Json.same (.object attributes) (.object expected.attributes) = true ∧
      env.files (artifactDirectory ++ [points expected.file]) = .file content := by
  cases variant with
  | object variant => exact verifyMembers_eq_ok hname h
  | _ => cases h

/-- The variants that pass are as many as expected, and each of them passes with its own tables. -/
theorem verifyVariants_eq_ok {env : Environment} {artifactDirectory : PurePath} {variants : Json}
    (h : verifyVariants env artifactDirectory variants = .ok ()) :
    ∃ items, variants = .list items ∧ List.Forall₂ (fun variant expected =>
      verifyVariant env artifactDirectory (variant, expected) = .ok ())
        items EXPECTED_VARIANTS := by
  unfold verifyVariants at h
  split at h
  · next variant rest =>
    rw [reject, guard_eq_ok_iff, not_not] at h
    obtain ⟨hlength, hrounds⟩ := h
    refine ⟨variant :: rest, rfl, List.forall₂_iff_zip.mpr ⟨hlength, fun {a b} hmem => ?_⟩⟩
    exact Outcome.forM_eq_ok_iff.mp hrounds (a, b) hmem
  · cases h

/-! ## The document -/

/-- The attributes of an accepted library variant. -/
theorem isLibrary_of_same {attributes : List (Text × Json)} {usage : String}
    (hnodup : (Dict.keys attributes).Nodup)
    (h : Json.same (.object attributes) (.object (libraryAttributes (.int 17) usage)) = true) :
    IsLibrary attributes usage := by
  obtain ⟨version, hperm, hversion⟩ := Json.perm_of_same_but
    (points "org.gradle.jvm.version") hnodup (by
      intro other hother hkey
      simp only [libraryAttributes, List.mem_cons, List.not_mem_nil, or_false] at hother
      rcases hother with rfl | rfl | rfl | rfl | rfl
      · exact Json.isRigid_str _
      · exact Json.isRigid_str _
      · exact absurd rfl hkey
      · exact Json.isRigid_str _
      · exact Json.isRigid_str _) h
  refine ⟨version, Json.same_int_iff.mp (hversion (.int 17) ?_), ?_⟩
  · simp [libraryAttributes, textMember, Dict.get?_cons]
  · simpa [libraryAttributes, textMember] using hperm

/-- The attributes of an accepted documentation variant. -/
theorem perm_documentationAttributes {attributes : List (Text × Json)} {docstype : String}
    (hnodup : (Dict.keys attributes).Nodup)
    (h : Json.same (.object attributes) (.object (documentationAttributes docstype)) = true) :
    attributes.Perm (documentationAttributes docstype) := by
  refine Json.perm_of_same hnodup ?_ h
  intro other hother
  simp only [documentationAttributes, List.mem_cons, List.not_mem_nil, or_false] at hother
  rcases hother with rfl | rfl | rfl | rfl <;> exact Json.isRigid_str _

/-- An accepted component is the expected one. -/
theorem verifyComponent_eq_ok {component : Json} (h : verifyComponent component = .ok ()) :
    component = .object COMPONENT := by
  cases component with
  | object component =>
    simp only [verifyComponent, reject, guard_eq_ok_iff, not_not] at h
    obtain ⟨hkeys, hequal, -⟩ := h
    have hnodup : (Dict.keys component).Nodup := by
      rw [eq_of_beq hkeys]
      exact (show (_ : List String).Nodup by decide).map fun _ _ => Python.points_inj.mp
    have hperm : component.Perm COMPONENT := by
      refine Json.perm_of_same hnodup ?_ (Json.same_of_equal hequal)
      intro other hother
      simp only [COMPONENT, List.mem_cons, List.not_mem_nil, or_false] at hother
      rcases hother with rfl | rfl | rfl | rfl
      · exact Json.isRigid_str _
      · exact Json.isRigid_str _
      · exact Json.isRigid_str _
      · exact Json.isRigid_singleton (Json.isRigid_str _)
    refine congrArg Json.object (Dict.eq_of_get? (eq_of_beq hkeys) (hperm.map _ |>.nodup hnodup) ?_)
    intro member hmember
    exact (Dict.lookup_eq_some_iff hnodup).mpr (hperm.mem_iff.mpr hmember)
  | _ => cases h

/-- An accepted creator is the expected version of Gradle. -/
theorem verifyCreator_eq_ok {creator : Json} (h : verifyCreator creator = .ok ()) :
    creator = .object [(points "gradle", .object [textMember "version" "8.8"])] := by
  cases creator with
  | object createdBy =>
    simp only [verifyCreator, reject, guard_eq_ok_iff, not_not, bind_eq_ok_iff] at h
    obtain ⟨hkeys, gradle, hgradle, h⟩ := h
    cases gradle with
    | object gradle =>
      simp only [verifyGradle, reject, guard_eq_ok_iff, not_not, not_or] at h
      obtain ⟨⟨hgradleKeys, hequal⟩, -⟩ := h
      have hversion := Json.isRigid_str _ _ (Json.same_of_equal hequal)
      have hget : item gradle "version" = .ok (.str (points "8.8")) := by
        rw [item_eq_ok_iff]
        cases hfound : Dict.get? gradle (points "version") with
        | none =>
          rw [hfound] at hversion
          cases hversion
        | some value =>
          rw [hfound] at hversion
          exact congrArg some hversion
      have hmembers := eq_of_hasKeys [("version", .str (points "8.8"))] hgradleKeys rfl
        (by decide) (List.forall_mem_singleton.mpr hget)
      have hcreated := eq_of_hasKeys [("gradle", .object gradle)] hkeys rfl (by decide)
        (List.forall_mem_singleton.mpr hgradle)
      rw [hcreated, hmembers]
      rfl
    | _ => cases h
  | _ => cases h

/-- A document that passes its checks is the expected one, with variants that pass theirs. -/
theorem verifyDocument_eq_ok {env : Environment} {artifactDirectory : PurePath}
    {document : List (Text × Json)} (h : verifyDocument env artifactDirectory document = .ok ()) :
    ∃ variants, document = reviewedModule variants ∧ List.Forall₂ (fun variant expected =>
      verifyVariant env artifactDirectory (variant, expected) = .ok ())
        variants EXPECTED_VARIANTS := by
  simp only [verifyDocument, reject, guard_eq_ok_iff, bind_eq_ok_iff, not_not, not_or] at h
  obtain ⟨⟨-, hkeys⟩, formatVersion, hformat, hequal, ⟨⟩, ⟨component, hcomponent, hverified⟩, ⟨⟩,
    ⟨creator, hcreator, hcreated⟩, variants, hvariants, h⟩ := h
  obtain rfl : formatVersion = .str (points "1.1") :=
    Json.isRigid_str _ _ (Json.same_of_equal hequal)
  obtain rfl := verifyComponent_eq_ok hverified
  obtain rfl := verifyCreator_eq_ok hcreated
  obtain ⟨items, rfl, hitems⟩ := verifyVariants_eq_ok h
  refine ⟨items, ?_, hitems⟩
  refine eq_of_hasKeys [("formatVersion", .str (points "1.1")),
    ("component", .object COMPONENT),
    ("createdBy", .object [(points "gradle", .object [textMember "version" "8.8"])]),
    ("variants", .list items)] hkeys rfl (by decide) ?_
  intro member hmember
  simp only [List.mem_cons, List.not_mem_nil, or_false] at hmember
  rcases hmember with rfl | rfl | rfl | rfl
  · exact hformat
  · exact hcomponent
  · exact hcreator
  · exact hvariants

/-- A document is read when it is that of the text in a short file without NUL bytes. -/
theorem readJson_eq_ok_iff {env : Environment} {path : PurePath} {document : List (Text × Json)} :
    readJson env path = .ok document ↔ ∃ data text, env.files path = .file data ∧
      data.length ≤ MAX_FILE_BYTES ∧ 0 ∉ data ∧ decodeUtf8 data = some text ∧
      env.json.loads jsonObject text = .ok (.object document) := by
  rw [readJson, bind_eq_ok_iff]
  constructor
  · rintro ⟨data, hdata, h⟩
    obtain ⟨hfile, hlength, hnul⟩ := read_eq_ok_iff.mp hdata
    cases htext : decodeUtf8 data with
    | none => simp [htext, reject] at h
    | some text =>
      refine ⟨data, text, hfile, hlength, hnul, htext, ?_⟩
      simp only [htext] at h
      split at h
      · cases h
      · cases h
      · cases h
      · next members hloads => rw [hloads, Except.ok.inj h]
      · cases h
  · rintro ⟨data, text, hfile, hlength, hnul, htext, hloads⟩
    refine ⟨data, read_eq_ok_iff.mpr ⟨hfile, hlength, hnul⟩, ?_⟩
    simp only [htext, hloads]

/-- The attributes of a variant have distinct keys when the document has. -/
theorem nodup_attributes {variants : List Json} {name : String}
    {attributes record : List (Text × Json)}
    (h : (Json.object (reviewedModule variants)).distinctKeys = true)
    (hmem : reviewedVariant name attributes record ∈ variants) : (Dict.keys attributes).Nodup := by
  have hvariants : Json.itemsDistinct variants = true := by
    simp only [reviewedModule, Json.distinctKeys, Json.membersDistinct, Bool.and_eq_true] at h
    exact h.2.2.2.2.1
  have hvariant := Json.distinctKeys_of_mem hvariants hmem
  simp only [reviewedVariant, Json.distinctKeys, Json.membersDistinct, Bool.and_eq_true] at hvariant
  exact of_decide_eq_true hvariant.2.2.1.1

/-- Accepted module metadata has the four variants in order and no other member at any level. Each
variant has one file, which is in the artifact directory, with the size and the digests of all its
octets; those of the first two variants are of one file. -/
theorem verifyModule_exact (env : Environment) (path artifactDirectory : PurePath)
    (h : verifyModule env path artifactDirectory = .ok ()) :
    ∃ data text api runtime sources javadoc jar sourcesJar javadocJar,
      env.files path = .file data ∧ decodeUtf8 data = some text ∧
      env.json.loads jsonObject text = .ok (.object (reviewedModule
        [reviewedVariant "apiElements" api
            (artifactRecord env "reality-core-0.1.0-SNAPSHOT.jar" jar),
          reviewedVariant "runtimeElements" runtime
            (artifactRecord env "reality-core-0.1.0-SNAPSHOT.jar" jar),
          reviewedVariant "sourcesElements" sources
            (artifactRecord env "reality-core-0.1.0-SNAPSHOT-sources.jar" sourcesJar),
          reviewedVariant "javadocElements" javadoc
            (artifactRecord env "reality-core-0.1.0-SNAPSHOT-javadoc.jar" javadocJar)])) ∧
      IsLibrary api "java-api" ∧ IsLibrary runtime "java-runtime" ∧
      sources.Perm (documentationAttributes "sources") ∧
      javadoc.Perm (documentationAttributes "javadoc") ∧
      env.files (artifactDirectory ++ [points "reality-core-0.1.0-SNAPSHOT.jar"]) = .file jar ∧
      env.files (artifactDirectory ++ [points "reality-core-0.1.0-SNAPSHOT-sources.jar"]) =
        .file sourcesJar ∧
      env.files (artifactDirectory ++ [points "reality-core-0.1.0-SNAPSHOT-javadoc.jar"]) =
        .file javadocJar := by
  obtain ⟨document, hread, hdocument⟩ := bind_eq_ok_iff.mp h
  obtain ⟨data, text, hfile, -, -, htext, hloads⟩ := readJson_eq_ok_iff.mp hread
  have hdistinct := env.json.distinctKeys hloads
  obtain ⟨variants, rfl, hvariants⟩ := verifyDocument_eq_ok hdocument
  have hcomponents : ∀ expected ∈ EXPECTED_VARIANTS,
      PurePath.IsComponent (points expected.file) := by decide
  have hexact := Outcome.forall₂_imp_of_mem hvariants.flip fun expected variant hmem hround =>
    verifyVariant_eq_ok (hcomponents expected hmem) hround
  have htable : EXPECTED_VARIANTS =
      [⟨"apiElements", libraryAttributes (.int 17) "java-api", "reality-core-0.1.0-SNAPSHOT.jar"⟩,
        ⟨"runtimeElements", libraryAttributes (.int 17) "java-runtime",
          "reality-core-0.1.0-SNAPSHOT.jar"⟩,
        ⟨"sourcesElements", documentationAttributes "sources",
          "reality-core-0.1.0-SNAPSHOT-sources.jar"⟩,
        ⟨"javadocElements", documentationAttributes "javadoc",
          "reality-core-0.1.0-SNAPSHOT-javadoc.jar"⟩] := rfl
  rw [htable] at hexact
  obtain ⟨_, _, ⟨api, jar, rfl, hapi, hjar⟩, hrest, rfl⟩ := List.forall₂_cons_left_iff.mp hexact
  obtain ⟨_, _, ⟨runtime, jar', rfl, hruntime, hjar'⟩, hdocs, rfl⟩ :=
    List.forall₂_cons_left_iff.mp hrest
  obtain ⟨_, _, ⟨sources, sourcesJar, rfl, hsources, hsourcesJar⟩, hlast, rfl⟩ :=
    List.forall₂_cons_left_iff.mp hdocs
  obtain ⟨_, _, ⟨javadoc, javadocJar, rfl, hjavadoc, hjavadocJar⟩, hnone, rfl⟩ :=
    List.forall₂_cons_left_iff.mp hlast
  obtain rfl := List.forall₂_nil_left_iff.mp hnone
  obtain rfl : jar' = jar := Python.Node.file.inj (hjar'.symm.trans hjar)
  refine ⟨data, text, api, runtime, sources, javadoc, jar', sourcesJar, javadocJar, hfile, htext,
    hloads, ?_, ?_, ?_, ?_, hjar, hsourcesJar, hjavadocJar⟩
  · exact isLibrary_of_same (nodup_attributes hdistinct (.head _)) hapi
  · exact isLibrary_of_same (nodup_attributes hdistinct (.tail _ (.head _))) hruntime
  · exact perm_documentationAttributes
      (nodup_attributes hdistinct (.tail _ (.tail _ (.head _)))) hsources
  · exact perm_documentationAttributes
      (nodup_attributes hdistinct (.tail _ (.tail _ (.tail _ (.head _))))) hjavadoc

/-! ## A publication -/

/-- `b"abc"` -/
def abc : Bytes := [0x61, 0x62, 0x63]

/-- The digests of three octets, as numbers. -/
def abcDigest : Algorithm → ℕ
  | .sha512 => 0xddaf35a193617abacc417349ae20413112e6fa4e89a97ea20a9eeee64b55d39a * 2 ^ 256 +
      0x2192992a274fc1a836ba3c23a3feebbd454d4423643ce80e2a9ac94fa54ca49f
  | .sha256 => 0xba7816bf8f01cfea414140de5dae2223b00361a396177a9cb410ff61f20015ad
  | .sha1 => 0xa9993e364706816aba3e25717850c26c9cd0d89d
  | .md5 => 0x900150983cd24fb0d6963f7d28e17f72

/-- The hash algorithms on these octets. -/
def abcHasher (algorithm : Algorithm) : Python.Hasher algorithm.digits :=
  .ofNumber algorithm.digits fun data => if data = abc then abcDigest algorithm else 0

/-- A record of these octets. -/
def abcRecord (file : String) : List (Text × Json) :=
  [textMember "name" file, textMember "url" file, (points "size", .int 3)] ++
    ALGORITHMS.map fun algorithm => (points algorithm.name, .str ((abcHasher algorithm).hash abc))

/-- The members of a document for three files with these octets. -/
def abcMembers : List (Text × Json) :=
  reviewedModule
    [reviewedVariant "apiElements" (libraryAttributes (.int 17) "java-api")
        (abcRecord "reality-core-0.1.0-SNAPSHOT.jar"),
      reviewedVariant "runtimeElements" (libraryAttributes (.int 17) "java-runtime")
        (abcRecord "reality-core-0.1.0-SNAPSHOT.jar"),
      reviewedVariant "sourcesElements" (documentationAttributes "sources")
        (abcRecord "reality-core-0.1.0-SNAPSHOT-sources.jar"),
      reviewedVariant "javadocElements" (documentationAttributes "javadoc")
        (abcRecord "reality-core-0.1.0-SNAPSHOT-javadoc.jar")]

/-- The text of the document. -/
def abcText : Python.Str := (Json.object abcMembers).dumpsIndent 2 0 ++ ['\n']

/-- The directory of the archives of a build. -/
def abcLibs : PurePath := [points "repo", points "build", points "libs"]

/-- The directory of its staged files. -/
def abcVersionDirectory : PurePath :=
  [points "repo", points "build", points "staging", points "repository", points "io",
    points "github", points "yu1sh", points "reality", points "reality-core",
    points "0.1.0-SNAPSHOT"]

def abcPom : PurePath :=
  abcVersionDirectory ++ [points "reality-core-0.1.0-20260102.030405-1.pom"]

def abcModule : PurePath :=
  abcVersionDirectory ++ [points "reality-core-0.1.0-20260102.030405-1.module"]

/-- A POM and archives of three octets each, and the module metadata for them. -/
def abcFiles : Python.Files := fun path =>
  if path = abcPom then .file abc
  else if path = abcModule then .file (Python.encodeUtf8 abcText)
  else if path.parent = abcLibs then .file abc
  else .missing

/-- The publication of this build. -/
def abcEnvironment : Environment where
  files := abcFiles
  json := .ofDocument abcText (.object abcMembers)
  hashers := abcHasher
  isPrintable _ := true
  lower text := text.map fun p => if 0x41 ≤ p.val ∧ p.val ≤ 0x5a then p + 0x20 else p

/-- The text is short, and its octets are harmless ones without a timestamp. -/
theorem abcText_plain : (Python.encodeUtf8 abcText).length ≤ MAX_FILE_BYTES ∧
    (∀ b ∈ Python.encodeUtf8 abcText, Archive.isHarmless b = true) ∧
    Regex.search Archive.TIMESTAMP_RE (Python.encodeUtf8 abcText) = none := by
  have hall : (decide ((Python.encodeUtf8 abcText).length ≤ MAX_FILE_BYTES) &&
      ((Python.encodeUtf8 abcText).all Archive.isHarmless &&
        (Regex.search Archive.TIMESTAMP_RE (Python.encodeUtf8 abcText)).isNone)) = true := by
    decide +kernel
  simpa only [Bool.and_eq_true, decide_eq_true_eq, List.all_eq_true,
    Option.isNone_iff_eq_none] using hall

theorem files_abcModule : abcFiles abcModule = .file (Python.encodeUtf8 abcText) := by
  rw [abcFiles, if_neg (show abcModule ≠ abcPom by decide), if_pos rfl]

/-- The document is read as what it is. -/
theorem readJson_abcModule : readJson abcEnvironment abcModule = .ok abcMembers := by
  obtain ⟨hlength, hharmless, -⟩ := abcText_plain
  have hzero : 0 ∉ Python.encodeUtf8 abcText := fun h => Bool.false_ne_true (hharmless 0 h)
  have hjson : abcEnvironment.json = .ofDocument abcText (.object abcMembers) := rfl
  have hloads : abcEnvironment.json.loads jsonObject abcText = .ok (.object abcMembers) := by
    rw [hjson, jsonObject]
    exact Python.JsonLoads.loads_ofDocument (by decide +kernel)
  exact readJson_eq_ok_iff.mpr ⟨_, abcText, files_abcModule, hlength, hzero,
    Python.decodeUtf8_encodeUtf8 abcText, hloads⟩

/-- The metadata of this build is accepted. -/
theorem verifyModule_abc : verifyModule abcEnvironment abcModule abcLibs = .ok () := by
  rw [verifyModule, readJson_abcModule]
  decide +kernel

/-- The publication is accepted, and the file that the document records is there. -/
theorem verifyModule_exact_abc :
    verifyModule abcEnvironment abcModule abcLibs = .ok () ∧
      ∃ jar, abcFiles (abcLibs ++ [points "reality-core-0.1.0-SNAPSHOT.jar"]) = .file jar := by
  obtain ⟨_, _, _, _, _, _, jar, _, _, -, -, -, -, -, -, -, hjar, -⟩ :=
    verifyModule_exact abcEnvironment abcModule abcLibs verifyModule_abc
  exact ⟨verifyModule_abc, jar, hjar⟩

end RealityCore.Publication
