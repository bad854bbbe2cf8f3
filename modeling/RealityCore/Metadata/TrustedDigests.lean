import RealityCore.Metadata.ReviewedTree

/-!
# The digests that an accepted file makes Gradle trust

A checksum element may hold further trust elements, each with a digest of its own. The
verification does not look below a checksum or a configuration value, so an accepted file
has exactly the reviewed elements and digests when these leaves are childless, and only then.
-/

namespace RealityCore.DependencyMetadata

open Outcome (exists_of_forall₂_left forall₂_imp_of_mem map_eq_map_of_forall₂)
open Python (Str Dict)
open Regex (fullMatch)
open Xml (Element)

mutual

/-- The digests named by an element and by everything below it. -/
def namedDigests : Element → List Str
  | .mk _ attrib _ children => (attrib.lookup "value".toList).toList ++ digestsBelow children

/-- The digests named by elements and by everything below them. -/
def digestsBelow : List Element → List Str
  | [] => []
  | child :: rest => namedDigests child ++ digestsBelow rest

end

/-- The digests trusted for each artifact of a file. -/
def trustedGraph (root : Element) : List (Key × List (Str × List Str)) :=
  match root.children with
  | [_, components] => components.children.map fun component => (coordinates component,
      component.children.map fun artifact =>
        (artifact.get "name".toList, digestsBelow artifact.children))
  | _ => []

/-- The reviewed graph, with one digest for each artifact. -/
def reviewedGraph : List (Key × List (Str × List Str)) :=
  EXPECTED.map fun item => (item.1, item.2.map fun artifact => (artifact.1, [artifact.2]))

/-- An artifact with one childless checksum of the reviewed digest. -/
def ExactArtifact (artifact : Element) (item : Str × Str) : Prop :=
  artifact.tag = inNamespace "artifact" ∧ artifact.get "name".toList = item.1 ∧
    ∃ checksum, artifact.children = [checksum] ∧ checksum.tag = inNamespace "sha256" ∧
      checksum.get "value".toList = item.2 ∧ checksum.children = []

/-- A component with the reviewed artifacts and no other element. -/
def ExactComponent (component : Element) (item : Key × Dict Str Str) : Prop :=
  component.tag = inNamespace "component" ∧ coordinates component = item.1 ∧
    List.Forall₂ ExactArtifact component.children item.2

/-- A file with the reviewed elements and no other element at any depth. -/
def Exact (root : Element) : Prop :=
  root.tag = inNamespace "verification-metadata" ∧
    ∃ configuration components verifyMetadata verifySignatures,
      root.children = [configuration, components] ∧
      configuration.tag = inNamespace "configuration" ∧
      configuration.children = [verifyMetadata, verifySignatures] ∧
      verifyMetadata.tag = inNamespace "verify-metadata" ∧ verifyMetadata.children = [] ∧
      verifySignatures.tag = inNamespace "verify-signatures" ∧ verifySignatures.children = [] ∧
      components.tag = inNamespace "components" ∧
      List.Forall₂ ExactComponent components.children EXPECTED

/-- The elements at which the verification stops: configuration values and checksums. -/
def leaves (root : Element) : List Element :=
  match root.children with
  | [configuration, components] =>
    configuration.children ++ components.children.flatMap fun component =>
      component.children.flatMap Element.children
  | _ => []

/-- A childless checksum names its own digest only. -/
theorem namedDigests_of_isChecksum {checksum : Element} {digest : Str}
    (h : IsChecksum checksum digest) (hchildren : checksum.children = []) :
    namedDigests checksum = [digest] := by
  obtain ⟨tag, attrib, text, children⟩ := checksum
  have hkeys : attrib.map Prod.fst = ["value".toList, "origin".toList] := h.keys
  obtain ⟨⟨key, value⟩, rest, rfl, rfl, -⟩ := List.map_eq_cons_iff.mp hkeys
  have hvalue : value = digest := by simpa [Element.get, Element.attrib] using h.value
  obtain rfl : children = [] := hchildren
  simp [namedDigests, digestsBelow, hvalue]

/-- An exact file has childless leaves. -/
theorem Exact.leaves_childless {root : Element} (h : Exact root) :
    ∀ leaf ∈ leaves root, leaf.children = [] := by
  obtain ⟨-, configuration, components, verifyMetadata, verifySignatures, hroot, -, hconfiguration,
    -, hmetadata, -, hsignatures, -, hgraph⟩ := h
  intro leaf hleaf
  simp only [leaves, hroot, hconfiguration, List.mem_append, List.mem_cons, List.not_mem_nil,
    or_false, List.mem_flatMap] at hleaf
  rcases hleaf with (rfl | rfl) | ⟨component, hcomponent, artifact, hartifact, hleaf⟩
  · exact hmetadata
  · exact hsignatures
  · obtain ⟨_, -, -, -, hartifacts⟩ := exists_of_forall₂_left hgraph hcomponent
    obtain ⟨_, -, -, -, checksum, hchecksum, -, -, hchildless⟩ :=
      exists_of_forall₂_left hartifacts hartifact
    rw [hchecksum, List.mem_singleton] at hleaf
    rw [hleaf]
    exact hchildless

/-- An accepted artifact whose checksum is childless is exact and trusts its digest only. -/
theorem IsArtifact.exact {artifact : Element} {item : Str × Str} (h : IsArtifact artifact item)
    (hchildless : ∀ leaf ∈ artifact.children, leaf.children = []) :
    ExactArtifact artifact item ∧ digestsBelow artifact.children = [item.2] := by
  obtain ⟨checksum, hchildren, hchecksum⟩ := h.checksum
  have hleaf : checksum.children = [] := hchildless checksum (by simp [hchildren])
  refine ⟨⟨h.tag, h.name, checksum, hchildren, hchecksum.tag, hchecksum.value, hleaf⟩, ?_⟩
  rw [hchildren, digestsBelow, digestsBelow, namedDigests_of_isChecksum hchecksum hleaf,
    List.append_nil]

/-- An accepted component whose checksums are childless is exact and trusts its digests only. -/
theorem IsComponent.exact {component : Element} {item : Key × Dict Str Str}
    (h : IsComponent component item)
    (hchildless : ∀ artifact ∈ component.children, ∀ leaf ∈ artifact.children,
      leaf.children = []) :
    ExactComponent component item ∧
      component.children.map (fun artifact =>
        (artifact.get "name".toList, digestsBelow artifact.children)) =
      item.2.map fun artifact => (artifact.1, [artifact.2]) := by
  have hexact := forall₂_imp_of_mem h.artifacts fun artifact item hmem hitem =>
    (⟨hitem.name, hitem.exact (hchildless artifact hmem)⟩ :
      artifact.get "name".toList = item.1 ∧ ExactArtifact artifact item ∧
        digestsBelow artifact.children = [item.2])
  refine ⟨⟨h.tag, h.key, hexact.imp fun _ _ h => h.2.1⟩, map_eq_map_of_forall₂ hexact ?_⟩
  exact fun _ _ h => by rw [h.1, h.2.2]

/-- An accepted file has the reviewed elements and digests exactly when its leaves are
childless. -/
theorem accepted_exact_iff {root : Element} {counts : ℕ × ℕ} (h : verifyTree root = .ok counts) :
    (Exact root ∧ trustedGraph root = reviewedGraph) ↔
      ∀ leaf ∈ leaves root, leaf.children = [] := by
  constructor
  · exact fun hexact => hexact.1.leaves_childless
  · intro hchildless
    obtain ⟨htag, -, configuration, components, hchildren, hconfiguration, hcomponents, -,
      hgraph⟩ := ((verifyTree_eq_ok_iff root counts).mp h).1
    obtain ⟨verifyMetadata, rest, hconf, hmetadata, hrest⟩ :=
      List.map_eq_cons_iff.mp hconfiguration.tags
    obtain ⟨verifySignatures, rfl, hsignatures⟩ := List.map_eq_singleton_iff.mp hrest
    have hleaf : ∀ leaf, leaf ∈ configuration.children ∨ (∃ component ∈ components.children,
        ∃ artifact ∈ component.children, leaf ∈ artifact.children) → leaf.children = [] := by
      intro leaf hleaf
      refine hchildless leaf ?_
      simpa only [leaves, hchildren, List.mem_append, List.mem_flatMap] using hleaf
    have hexact := forall₂_imp_of_mem hgraph fun component item hmem hitem =>
      (⟨hitem.key, hitem.exact fun artifact hartifact leaf hl =>
          hleaf leaf (.inr ⟨component, hmem, artifact, hartifact, hl⟩)⟩ :
        coordinates component = item.1 ∧ ExactComponent component item ∧
          component.children.map (fun artifact =>
            (artifact.get "name".toList, digestsBelow artifact.children)) =
          item.2.map fun artifact => (artifact.1, [artifact.2]))
    refine ⟨⟨htag, configuration, components, verifyMetadata, verifySignatures, hchildren,
      hconfiguration.tag, hconf, hmetadata, hleaf _ (.inl (by simp [hconf])), hsignatures,
      hleaf _ (.inl (by simp [hconf])), hcomponents, hexact.imp fun _ _ h => h.2.1⟩, ?_⟩
    simp only [trustedGraph, hchildren, reviewedGraph]
    exact map_eq_map_of_forall₂ hexact fun _ _ h => by rw [h.1, h.2.2]

/-- The checksums of the reviewed file are among the leaves. -/
theorem checksumElement_mem_leaves (below : List Element) {item : Key × Dict Str Str}
    {artifact : Str × Str} (hitem : item ∈ EXPECTED) (hartifact : artifact ∈ item.2) :
    checksumElement below artifact.2 ∈ leaves (reviewedTree below) := by
  have hcomponent : componentElement below item ∈ EXPECTED.map (componentElement below) :=
    List.mem_map_of_mem hitem
  have helement : artifactElement below artifact ∈ (componentElement below item).children :=
    List.mem_map_of_mem hartifact
  refine List.mem_append_right _ (List.mem_flatMap.mpr ⟨_, hcomponent, ?_⟩)
  exact List.mem_flatMap.mpr ⟨_, helement, List.mem_cons_self⟩

/-- A trust element with a digest that was never reviewed. -/
def alsoTrust : Element :=
  .mk (inNamespace "also-trust") [("value".toList, List.replicate 64 '0')] none []

/-- The reviewed file with an unreviewed digest below each checksum is accepted. -/
theorem alsoTrust_accepted :
    verifyTree (reviewedTree [alsoTrust]) = .ok (10, 20) ∧
      ¬(Exact (reviewedTree [alsoTrust]) ∧
        trustedGraph (reviewedTree [alsoTrust]) = reviewedGraph) := by
  refine ⟨verifyTree_reviewedTree [alsoTrust], fun h => ?_⟩
  obtain ⟨item, hitem, artifact, hartifact⟩ : ∃ item ∈ EXPECTED, ∃ artifact, artifact ∈ item.2 :=
    ⟨_, List.mem_cons_self, _, List.mem_cons_self⟩
  have hleaf := checksumElement_mem_leaves [alsoTrust] hitem hartifact
  exact absurd (h.1.leaves_childless _ hleaf) (List.cons_ne_nil _ _)

/-- In the reviewed file nothing is below the elements at which the verification stops. -/
theorem childless_leaves_reviewedTree : ∀ leaf ∈ leaves (reviewedTree []), leaf.children = [] := by
  intro leaf hleaf
  rcases List.mem_append.mp hleaf with hvalue | hchecksum
  · rcases List.mem_pair.mp hvalue with rfl | rfl <;> rfl
  · obtain ⟨component, hcomponent, hbelow⟩ := List.mem_flatMap.mp hchecksum
    obtain ⟨item, -, rfl⟩ := List.mem_map.mp hcomponent
    obtain ⟨element, helement, hchild⟩ := List.mem_flatMap.mp hbelow
    obtain ⟨artifact, -, rfl⟩ := List.mem_map.mp helement
    obtain rfl := List.mem_singleton.mp hchild
    rfl

/-- The reviewed file holds the reviewed elements and digests only. -/
theorem accepted_exact_iff_reviewedTree :
    (Exact (reviewedTree []) ∧ trustedGraph (reviewedTree []) = reviewedGraph) ∧
      ∀ leaf ∈ leaves (reviewedTree []), leaf.children = [] :=
  ⟨(accepted_exact_iff (verifyTree_reviewedTree [])).mpr childless_leaves_reviewedTree,
    childless_leaves_reviewedTree⟩

end RealityCore.DependencyMetadata
