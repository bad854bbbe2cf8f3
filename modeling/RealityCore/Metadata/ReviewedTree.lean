import RealityCore.Metadata.ReviewedGraph

/-!
# The reviewed file as a tree

The reviewed graph written as a verification file. Whatever stands below its checksum
elements, the verification accepts it.
-/

namespace RealityCore.DependencyMetadata

open Python (Str Dict)
open Regex (fullMatch)
open Xml (Element)

/-- A checksum element with further elements below it. -/
def checksumElement (below : List Element) (digest : Str) : Element :=
  .mk (inNamespace "sha256")
    [("value".toList, digest), ("origin".toList, "Generated by Gradle".toList)] none below

/-- An artifact element with one checksum. -/
def artifactElement (below : List Element) (item : Str × Str) : Element :=
  .mk (inNamespace "artifact") [("name".toList, item.1)] none [checksumElement below item.2]

/-- A component element with its coordinates and artifacts. -/
def componentElement (below : List Element) (item : Key × Dict Str Str) : Element :=
  .mk (inNamespace "component") (COMPONENT_ATTRIBUTES.zip item.1) none
    (item.2.map (artifactElement below))

/-- The reviewed file, with the given elements below each of its checksums. -/
def reviewedTree (below : List Element) : Element :=
  .mk (inNamespace "verification-metadata") [(XSI_SCHEMA_ATTRIBUTE, EXPECTED_SCHEMA_LOCATION)] none
    [.mk (inNamespace "configuration") [] none
      [.mk (inNamespace "verify-metadata") [] (some "true".toList) [],
        .mk (inNamespace "verify-signatures") [] (some "false".toList) []],
      .mk (inNamespace "components") [] none (EXPECTED.map (componentElement below))]

set_option maxRecDepth 20000 in
/-- The reviewed digests have the form of a SHA-256. -/
theorem EXPECTED_digests :
    ∀ item ∈ EXPECTED, ∀ artifact ∈ item.2, fullMatch SHA256_RE artifact.2 = true := by
  unfold EXPECTED EXPECTED_TABLE
  simp only [List.map_cons, List.map_nil]
  repeat rw [String.toList_ofList]
  decide +kernel

/-- The reviewed coordinates are a group, a name and a version. -/
theorem EXPECTED_coordinates : ∀ item ∈ EXPECTED, item.1.length = 3 := by decide

/-- An artifact element is accepted for its item. -/
theorem isArtifact_artifactElement (below : List Element) {item : Str × Str}
    (h : fullMatch SHA256_RE item.2 = true) : IsArtifact (artifactElement below item) item where
  tag := rfl
  keys := rfl
  name := rfl
  checksum := ⟨checksumElement below item.2, rfl, rfl, rfl, h, List.mem_cons_self, rfl⟩

/-- A component element is accepted for its item. -/
theorem isComponent_componentElement (below : List Element) {item : Key × Dict Str Str}
    (h : item ∈ EXPECTED) : IsComponent (componentElement below item) item where
  tag := rfl
  keys := by
    have hlength := EXPECTED_coordinates item h
    exact List.map_fst_zip (by simp [COMPONENT_ATTRIBUTES, hlength])
  key := by
    obtain ⟨group, name, version, hkey⟩ := List.length_eq_three.mp (EXPECTED_coordinates item h)
    simp only [coordinates, componentElement, hkey]
    rfl
  artifacts := List.forall₂_map_left_iff.mpr <| List.forall₂_same.mpr fun artifact hartifact =>
    isArtifact_artifactElement below (EXPECTED_digests item h artifact hartifact)
  ascending := EXPECTED_artifacts_ascending item h

/-- The reviewed file is accepted with any elements below its checksums. -/
theorem verifyTree_reviewedTree (below : List Element) :
    verifyTree (reviewedTree below) = .ok (10, 20) := by
  refine (verifyTree_eq_ok_iff _ _).mpr ⟨⟨rfl, rfl, _, _, rfl, ?_, rfl, rfl, ?_⟩, rfl⟩
  · exact ⟨rfl, rfl, by simp [Element.children, Element.attrib], rfl⟩
  · exact List.forall₂_map_left_iff.mpr <| List.forall₂_same.mpr fun item hitem =>
      isComponent_componentElement below hitem

end RealityCore.DependencyMetadata
