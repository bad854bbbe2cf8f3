import Mathlib.Data.List.Permutation
import RealityCore.Library.JsonEquality
import RealityCore.Sbom.Timestamps
import RealityCore.Sbom.ValidateDocument

/-!
# The reviewed bill of materials

The checks accept the reviewed document and five others: the version may be `true` or `1.0`, and
the two members of the dependency may be in the other order. Only texts, empty lists and the keys
of the three objects that are compared in their order are fixed.
-/

namespace RealityCore.Sbom

open Outcome (bind_eq_ok_iff guard_eq_ok_iff forM_eq_ok_iff)
open Python (Str Text CodePoint Json Dict JsonObject points encode?)
open Python.Json (same IsOne IsRigid distinctKeys membersDistinct itemsDistinct entries floatOne
  height)
open Regex (search)

/-- The document with the given version and the given members of the dependency. -/
def reviewed (version : Json) (dependency : List (Text × Json)) : List (Text × Json) :=
  [(points "bomFormat", .str (points "CycloneDX")), (points "specVersion", .str (points "1.5")),
    (points "version", version),
    (points "metadata", .object [(points "component", .object expectedRoot)]),
    (points "components", .list []), (points "dependencies", .list [.object dependency])]

/-- The reviewed document. -/
def SAFE_DOCUMENT : List (Text × Json) := reviewed (.int 1) expectedDependency

/-- The versions that are equal to one. -/
def versions : List Json := [.int 1, .bool true, .float floatOne]

/-- The orders of the members of the dependency. -/
def dependencies : List (List (Text × Json)) := [expectedDependency, expectedDependency.reverse]

/-- Another document than the reviewed one, with a version that is equal to its version and the
members of its dependency in one of their orders. -/
def IsVariant (document : List (Text × Json)) : Prop :=
  document ≠ SAFE_DOCUMENT ∧ ∃ version ∈ versions, ∃ dependency ∈ dependencies,
    document = reviewed version dependency

/-- A key holds a value equal to the given one. -/
theorem holds_iff {members : List (Text × Json)} {key : String} {value : Json} :
    holds members key value = true ↔
      ∃ found, Dict.get? members (points key) = some found ∧ same found value = true := by
  rw [holds, Option.any_eq_true]

/-- A key holds a rigid value. -/
theorem get?_of_holds {members : List (Text × Json)} {key : String} {value : Json}
    (hrigid : IsRigid value) (h : holds members key value = true) :
    Dict.get? members (points key) = some value := by
  obtain ⟨found, hget, hsame⟩ := holds_iff.mp h
  rw [hget, hrigid found hsame]

/-- The values of the reviewed component are texts. -/
theorem expectedRoot_rigid : ∀ member ∈ expectedRoot, IsRigid member.2 := by
  intro member hmember
  simp only [expectedRoot, List.mem_cons, List.not_mem_nil, or_false] at hmember
  rcases hmember with rfl | rfl | rfl | rfl | rfl | rfl
  all_goals exact Json.isRigid_str _

/-- The values of the reviewed dependency are a text and the empty list. -/
theorem expectedDependency_rigid : ∀ member ∈ expectedDependency, IsRigid member.2 := by
  intro member hmember
  simp only [expectedDependency, List.mem_cons, List.not_mem_nil, or_false] at hmember
  rcases hmember with rfl | rfl
  · exact Json.isRigid_str _
  · exact Json.isRigid_nil

/-- Distinct keys in the reviewed order with the reviewed members are the reviewed component. -/
theorem root_eq {root : List (Text × Json)} (hkeys : Dict.keys root = requiredRootKeys)
    (hsame : same (.object root) (.object expectedRoot) = true) : root = expectedRoot := by
  have hexpected : Dict.keys expectedRoot = requiredRootKeys := rfl
  have hnodup : requiredRootKeys.Nodup := by decide
  have hperm := Json.perm_of_same (hkeys ▸ hnodup) expectedRoot_rigid hsame
  refine Dict.eq_of_get? (hkeys.trans hexpected.symm) (hexpected ▸ hnodup) fun member hmember => ?_
  exact (Dict.lookup_eq_some_iff (hkeys ▸ hnodup)).mpr (hperm.mem_iff.mpr hmember)

/-- Metadata that pass are those of the reviewed document. -/
theorem metadata_eq {metadata : Option Json} (h : validateMetadata metadata = .ok ()) :
    metadata = some (.object [(points "component", .object expectedRoot)]) := by
  unfold validateMetadata at h
  split at h
  · next members =>
    obtain ⟨hkeys, hroot⟩ := guard_eq_ok_iff.mp h
    split at hroot
    · next root hget =>
      simp only [refuse, guard_eq_ok_iff, ne_eq, not_not, Bool.not_eq_true', Bool.not_eq_false,
        and_true] at hroot
      have hmembers : members = [(points "component", .object root)] := by
        refine Dict.eq_of_get? (not_not.mp hkeys) (List.nodup_singleton _) ?_
        exact List.forall_mem_singleton.mpr hget
      rw [hmembers, root_eq hroot.1 hroot.2]
    · cases hroot
  · cases h

/-- A dependency equal to the reviewed one has its members in one of their orders. -/
theorem dependency_eq {value : Json}
    (hdistinct : distinctKeys value = true)
    (h : same value (.list [.object expectedDependency]) = true) :
    ∃ dependency ∈ dependencies, value = .list [.object dependency] := by
  obtain ⟨item, rfl, hitem⟩ := Json.singleton_of_same h
  obtain ⟨dependency, rfl⟩ := Json.object_of_same hitem
  simp only [distinctKeys, itemsDistinct, Bool.and_eq_true, decide_eq_true_eq] at hdistinct
  have hperm := Json.perm_of_same hdistinct.1.1 expectedDependency_rigid hitem
  refine ⟨dependency, ?_, rfl⟩
  simp only [dependencies, List.mem_cons, List.not_mem_nil, or_false]
  exact List.perm_pair.mp hperm

/-- Documents that are accepted are the reviewed one and its variants. -/
theorem members_of_validateDocument {isAlnum : CodePoint → Bool} {document : JsonObject}
    (h : validateDocument isAlnum document = .ok ()) :
    ∃ version ∈ versions, ∃ dependency ∈ dependencies,
      document.members = reviewed version dependency := by
  simp only [validateDocument, refuse, guard_eq_ok_iff, bind_eq_ok_iff, ne_eq, not_not,
    Bool.or_eq_true, not_or, Bool.not_eq_true', Bool.not_eq_false] at h
  obtain ⟨hkeys, ⟨hformat, hspec⟩, hversion, _, hmetadata, hcomponents, hdependencies, -⟩ := h
  obtain ⟨version, hgetVersion, hone⟩ := holds_iff.mp hversion
  obtain ⟨value, hgetDependencies, hsame⟩ := holds_iff.mp hdependencies
  have hdistinct := document.distinct
  rw [distinctKeys, Bool.and_eq_true] at hdistinct
  obtain ⟨dependency, hmem, rfl⟩ :=
    dependency_eq (Json.distinctKeys_of_get? hdistinct.2 hgetDependencies) hsame
  refine ⟨version, Json.isOne_iff.mp (Json.same_one_iff.mp hone), dependency, hmem, ?_⟩
  have hreviewed : Dict.keys (reviewed version dependency) = expectedTopLevel := rfl
  refine Dict.eq_of_get? (hkeys.trans hreviewed.symm) (hreviewed ▸ by decide) ?_
  simp only [reviewed, List.forall_mem_cons, List.not_mem_nil, false_implies, implies_true,
    and_true]
  exact ⟨get?_of_holds (Json.isRigid_str _) hformat, get?_of_holds (Json.isRigid_str _) hspec,
    hgetVersion, metadata_eq hmetadata, get?_of_holds Json.isRigid_nil hcomponents,
    hgetDependencies⟩

/-- A text without a digit two, a local path or too many octets. -/
def isQuietText (text : Text) : Bool :=
  (text.all fun p => p.val != '2'.toNat) && (encode? text).any fun encoded =>
    encoded.length ≤ MAX_STRING_BYTES && (search POSIX_ABSOLUTE_RE encoded).isNone &&
      (search WINDOWS_ABSOLUTE_RE encoded).isNone

/-- A value to which there is nothing to object. -/
def isQuiet (entry : Text × Json) : Bool :=
  !isForbiddenKey entry.1 && match entry.2 with
    | .str text => isQuietText text
    | _ => true

/-- The variants have nothing to object to, are not too deep and have no terms of test scopes. -/
theorem variants_quiet : ∀ version ∈ versions, ∀ dependency ∈ dependencies,
    (entries [] (.object (reviewed version dependency))).all isQuiet = true ∧
      height (.object (reviewed version dependency)) ≤ MAX_DEPTH ∧
        hasTestTerm (reviewed version dependency) = false := by
  decide +kernel

/-- The variants have the reviewed metadata, and a dependency equal to the reviewed one. -/
theorem variants_same : ∀ version ∈ versions, ∀ dependency ∈ dependencies,
    validateMetadata (Dict.get? (reviewed version dependency) (points "metadata")) = .ok () ∧
      same (.list [.object dependency]) (.list [.object expectedDependency]) = true := by
  decide +kernel

/-- A quiet value is accepted. -/
theorem rejectEntry_of_isQuiet {isAlnum : CodePoint → Bool} {entry : Text × Json}
    (h : isQuiet entry = true) : rejectEntry isAlnum entry.1 entry.2 = .ok () := by
  obtain ⟨key, value⟩ := entry
  unfold isQuiet at h
  rw [Bool.and_eq_true, Bool.not_eq_true'] at h
  obtain ⟨hkey, hvalue⟩ := h
  unfold rejectEntry
  rw [if_neg (Bool.eq_false_iff.mp hkey)]
  cases value with
  | str text =>
    simp only [isQuietText, Bool.and_eq_true, Option.any_eq_true, List.all_eq_true,
      decide_eq_true_eq] at hvalue
    obtain ⟨htwo, encoded, hencode, ⟨hlength, hposix⟩, hwindows⟩ := hvalue
    have hdate : (search (TIMESTAMP_VALUE_RE isAlnum) text).isSome = false :=
      (Python.textAlphabet isAlnum).search_date_isSome_of_no_two fun p hp =>
        beq_eq_false_iff_ne.mpr (bne_iff_ne.mp (htwo p hp))
    rw [Option.isNone_iff_eq_none] at hposix hwindows
    have hshort : ¬encoded.length > MAX_STRING_BYTES := not_lt.mpr hlength
    simp [rejectText, hencode, hposix, hwindows, hdate, hshort]
  | _ => rfl

/-- A value of the reviewed document is found under its key. -/
theorem holds_reviewed {version : Json} {dependency : List (Text × Json)} {key : String}
    {found value : Json} (hmem : (points key, found) ∈ reviewed version dependency)
    (hsame : same found value = true) : holds (reviewed version dependency) key value = true := by
  have hkeys : Dict.keys (reviewed version dependency) = expectedTopLevel := rfl
  have hnodup : expectedTopLevel.Nodup := by decide
  exact holds_iff.mpr ⟨found, (Dict.lookup_eq_some_iff (hkeys ▸ hnodup)).mpr hmem, hsame⟩

/-- The reviewed document and its variants are accepted. -/
theorem validateDocument_reviewed (isAlnum : CodePoint → Bool) {document : JsonObject}
    {version : Json} {dependency : List (Text × Json)} (hversion : version ∈ versions)
    (hdependency : dependency ∈ dependencies)
    (h : document.members = reviewed version dependency) :
    validateDocument isAlnum document = .ok () := by
  obtain ⟨hquiet, hheight, hterms⟩ := variants_quiet version hversion dependency hdependency
  obtain ⟨hmetadata, hsame⟩ := variants_same version hversion dependency hdependency
  have hkeys : Dict.keys (reviewed version dependency) = expectedTopLevel := rfl
  have hformat : holds (reviewed version dependency) "bomFormat"
      (.str (points "CycloneDX")) = true :=
    holds_reviewed (.head _) (beq_self_eq_true _)
  have hspec : holds (reviewed version dependency) "specVersion" (.str (points "1.5")) = true :=
    holds_reviewed (.tail _ (.head _)) (beq_self_eq_true _)
  have hone : holds (reviewed version dependency) "version" (.int 1) = true :=
    holds_reviewed (.tail _ (.tail _ (.head _)))
      (Json.same_one_iff.mpr (Json.isOne_iff.mpr hversion))
  have hcomponents : holds (reviewed version dependency) "components" (.list []) = true :=
    holds_reviewed (.tail _ (.tail _ (.tail _ (.tail _ (.head _))))) rfl
  have hdependencies : holds (reviewed version dependency) "dependencies"
      (.list [.object expectedDependency]) = true :=
    holds_reviewed (.tail _ (.tail _ (.tail _ (.tail _ (.tail _ (.head _)))))) hsame
  have hpaths : rejectPathsAndTimestamps isAlnum (reviewed version dependency) = .ok () := by
    have hdepth := le_of_eq_of_le (Nat.add_zero _) hheight
    refine (walk_eq_forM _ _ _ _ hdepth).trans (forM_eq_ok_iff.mpr ?_)
    exact fun entry hentry => rejectEntry_of_isQuiet (List.all_eq_true.mp hquiet entry hentry)
  simp only [validateDocument, h, hkeys, hformat, hspec, hone, hmetadata, hcomponents,
    hdependencies, hterms, hpaths]
  rfl

/-- The checks accept the reviewed document only exactly when the document is none of its
variants. -/
theorem validateDocument_exact_iff (isAlnum : CodePoint → Bool) (document : JsonObject) :
    (validateDocument isAlnum document = .ok () ↔ document.members = SAFE_DOCUMENT) ↔
      ¬IsVariant document.members := by
  constructor
  · rintro h ⟨hne, version, hversion, dependency, hdependency, heq⟩
    exact hne (h.mp (validateDocument_reviewed isAlnum hversion hdependency heq))
  · intro hvariant
    constructor
    · intro h
      by_contra hne
      exact hvariant ⟨hne, members_of_validateDocument h⟩
    · intro h
      exact validateDocument_reviewed isAlnum (.head _) (.head _) h

/-- The document determines its version and the members of its dependency. -/
theorem reviewed_inj {version version' : Json} {dependency dependency' : List (Text × Json)}
    (h : reviewed version dependency = reviewed version' dependency') :
    version = version' ∧ dependency = dependency' := by
  simpa only [reviewed, List.cons.injEq, Prod.mk.injEq, Json.list.injEq, Json.object.injEq,
    true_and, and_true] using h

/-- The reviewed document with a truth value for the version. -/
def retyped : JsonObject where
  members := reviewed (.bool true) expectedDependency
  distinct := by decide

/-- The reviewed document with the members of the dependency in the other order. -/
def reordered : JsonObject where
  members := reviewed (.int 1) expectedDependency.reverse
  distinct := by decide

/-- Both variants are accepted, and neither is the reviewed document. -/
theorem validateDocument_accepts_variants :
    (validateDocument (fun _ => false) retyped = .ok () ∧ retyped.members ≠ SAFE_DOCUMENT) ∧
      validateDocument (fun _ => false) reordered = .ok () ∧
        reordered.members ≠ SAFE_DOCUMENT := by
  refine ⟨⟨?_, fun h => ?_⟩, ?_, fun h => ?_⟩
  · exact validateDocument_reviewed _ (.tail _ (.head _)) (.head _) rfl
  · cases (reviewed_inj h).1
  · exact validateDocument_reviewed _ (.head _) (.tail _ (.head _)) rfl
  · have hkeys := congrArg Dict.keys (reviewed_inj h).2
    exact absurd hkeys (by decide)

end RealityCore.Sbom
