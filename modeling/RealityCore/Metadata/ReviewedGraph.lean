import RealityCore.Metadata.VerifyTree

/-!
# What the verification accepts

Each level of the walk is characterized by what it checks. An accepted file has the reviewed
graph: its components and artifacts are those of `EXPECTED`, in that order, and each artifact
has one checksum element with the reviewed digest.
-/

namespace RealityCore.DependencyMetadata

open Outcome (bind_eq_ok_iff exists_of_forall₂_right guard_eq_ok_iff map_eq_ok_iff)
open Python (Str Dict pairwise_append_singleton_iff)
open Regex (fullMatch)
open Xml (Element)

/-- A checksum element with the given digest. -/
structure IsChecksum (checksum : Element) (digest : Str) : Prop where
  tag : checksum.tag = inNamespace "sha256"
  keys : checksum.attrib.keys = CHECKSUM_ATTRIBUTES
  digest_form : fullMatch SHA256_RE digest = true
  origin : checksum.get "origin".toList ∈ REVIEWED_ORIGINS.map String.toList
  value : checksum.get "value".toList = digest

/-- An artifact element with the given name and one checksum of the given digest. -/
structure IsArtifact (artifact : Element) (item : Str × Str) : Prop where
  tag : artifact.tag = inNamespace "artifact"
  keys : artifact.attrib.keys = ARTIFACT_ATTRIBUTES
  name : artifact.get "name".toList = item.1
  checksum : ∃ checksum, artifact.children = [checksum] ∧ IsChecksum checksum item.2

/-- A component element with the given coordinates and artifacts. -/
structure IsComponent (component : Element) (item : Key × Dict Str Str) : Prop where
  tag : component.tag = inNamespace "component"
  keys : component.attrib.keys = COMPONENT_ATTRIBUTES
  key : coordinates component = item.1
  artifacts : List.Forall₂ IsArtifact component.children item.2
  ascending : item.2.keys.Pairwise (· < ·)

/-- A checksum element is read for its digest. -/
theorem readChecksum_eq_ok_iff {checksum : Element} (htag : checksum.tag = inNamespace "sha256")
    (digest : Str) : readChecksum checksum = .ok digest ↔ IsChecksum checksum digest := by
  simp only [readChecksum, guard_eq_ok_iff, not_or, not_not, Bool.not_eq_false, Except.ok.injEq]
  constructor
  · rintro ⟨⟨hkeys, hform⟩, horigin, rfl⟩
    exact ⟨htag, hkeys, hform, horigin, rfl⟩
  · rintro ⟨-, hkeys, hform, horigin, rfl⟩
    exact ⟨⟨hkeys, hform⟩, horigin, rfl⟩

/-- A bound from below by the previous key, if there is one. -/
theorem not_any_le_iff {κ : Type*} [LinearOrder κ] {previous : Option κ} {key : κ} :
    ¬(previous.any fun last => decide (key ≤ last)) = true ↔ ∀ last ∈ previous, last < key := by
  cases previous <;> simp

/-- An artifact element is read for its name and digest. -/
theorem readArtifact_eq_ok_iff (previous : Option Str) (values : Dict Str Str)
    (artifact : Element) (item : Str × Str) :
    readArtifact previous values artifact = .ok item ↔
      IsArtifact artifact item ∧ ∀ last ∈ previous, last < item.1 := by
  obtain ⟨name, digest⟩ := item
  simp only [readArtifact, guard_eq_ok_iff, not_any_le_iff, not_or, not_not]
  constructor
  · rintro ⟨⟨htag, hkeys⟩, hlast, h⟩
    split at h
    · next checksum hchildren =>
      simp only [guard_eq_ok_iff, map_eq_ok_iff, not_not, Prod.mk.injEq] at h
      obtain ⟨hchecksum, digest', hread, rfl, rfl⟩ := h
      have hdigest := (readChecksum_eq_ok_iff hchecksum digest').mp hread
      exact ⟨⟨htag, hkeys, rfl, checksum, hchildren, hdigest⟩, hlast⟩
    · cases h
  · rintro ⟨⟨htag, hkeys, rfl, checksum, hchildren, hdigest⟩, hlast⟩
    refine ⟨⟨htag, hkeys⟩, hlast, ?_⟩
    simp only [hchildren, guard_eq_ok_iff, map_eq_ok_iff, not_not, Prod.mk.injEq, true_and]
    exact ⟨hdigest.tag, digest, (readChecksum_eq_ok_iff hdigest.tag digest).mpr hdigest, rfl⟩

/-- A component element is read for its coordinates and artifacts. -/
theorem readComponent_eq_ok_iff (actual : Graph) (component : Element)
    (item : Key × Dict Str Str) (hactual : actual.keys.Pairwise (· < ·)) :
    readComponent actual.keys.getLast? actual component = .ok item ↔
      IsComponent component item ∧ ∀ last ∈ actual.keys.getLast?, last < item.1 := by
  obtain ⟨key, values⟩ := item
  have hgather : ∀ values, Dict.gather readArtifact none [] component.children = .ok values ↔
      List.Forall₂ IsArtifact component.children values ∧ values.keys.Pairwise (· < ·) := by
    intro values
    have h := Dict.gather_eq_ok_iff (r := (· < ·))
      (fun d a item _ => readArtifact_eq_ok_iff d.keys.getLast? d a item) component.children
      (d := []) List.Pairwise.nil values
    simpa [Dict.keys] using h
  have hnew : (∀ last ∈ actual.keys.getLast?, last < coordinates component) →
      coordinates component ∉ actual.keys := by
    intro hlast hmem
    have hall := (pairwise_append_singleton_iff hactual _).mpr hlast
    exact lt_irrefl _ ((List.pairwise_append.mp hall).2.2 _ hmem _ (by simp))
  simp only [readComponent, guard_eq_ok_iff, not_any_le_iff, not_or, not_not, map_eq_ok_iff,
    Prod.mk.injEq, hgather]
  constructor
  · rintro ⟨⟨htag, hkeys⟩, hlast, -, values, ⟨hartifacts, hascending⟩, rfl, rfl⟩
    exact ⟨⟨htag, hkeys, rfl, hartifacts, hascending⟩, hlast⟩
  · rintro ⟨⟨htag, hkeys, rfl, hartifacts, hascending⟩, hlast⟩
    exact ⟨⟨htag, hkeys⟩, hlast, hnew hlast, values, ⟨hartifacts, hascending⟩, rfl, rfl⟩

/-- The reviewed graph is listed in ascending order at both levels. -/
theorem EXPECTED_ascending : Dict.keys EXPECTED |>.Pairwise (· < ·) := by decide +kernel

theorem EXPECTED_artifacts_ascending :
    ∀ item ∈ EXPECTED, (Dict.keys item.2).Pairwise (· < ·) := by decide +kernel

/-- Graphs in ascending order are equal as dictionaries only when they are the same list. -/
theorem equal_EXPECTED_iff {actual : Graph} (hkeys : actual.keys.Pairwise (· < ·))
    (hvalues : ∀ item ∈ actual, (Dict.keys item.2).Pairwise (· < ·)) :
    actual.equal (Dict.equal fun a b => decide (a = b)) EXPECTED = true ↔ actual = EXPECTED := by
  refine Dict.equal_iff_eq (fun _ _ => lt_asymm) hkeys EXPECTED_ascending fun p hp q hq => ?_
  refine Dict.equal_iff_eq (fun _ _ => lt_asymm) (hvalues p hp)
    (EXPECTED_artifacts_ascending q hq) fun a _ b _ => ?_
  exact decide_eq_true_iff

/-- The components element of an accepted file holds the reviewed graph. -/
theorem checkComponents_eq_ok_iff (components : Element) (counts : ℕ × ℕ) :
    checkComponents components = .ok counts ↔
      components.attrib = [] ∧ List.Forall₂ IsComponent components.children EXPECTED ∧
        counts = (10, 20) := by
  have hgather : ∀ actual, Dict.gather readComponent none [] components.children = .ok actual ↔
      List.Forall₂ IsComponent components.children actual ∧ actual.keys.Pairwise (· < ·) := by
    intro actual
    have h := Dict.gather_eq_ok_iff (r := (· < ·))
      (fun d a item hd => readComponent_eq_ok_iff d a item hd) components.children
      (d := []) List.Pairwise.nil actual
    simpa [Dict.keys] using h
  have hvalues : ∀ {actual : Graph}, List.Forall₂ IsComponent components.children actual →
      ∀ item ∈ actual, (Dict.keys item.2).Pairwise (· < ·) := by
    intro actual h item hitem
    obtain ⟨_, -, hcomponent⟩ := exists_of_forall₂_right h hitem
    exact hcomponent.ascending
  simp only [checkComponents, guard_eq_ok_iff, bind_eq_ok_iff, hgather, not_not]
  constructor
  · rintro ⟨hattrib, actual, ⟨hcomponents, hkeys⟩, h⟩
    split at h
    · next hequal =>
      obtain rfl := (equal_EXPECTED_iff hkeys (hvalues hcomponents)).mp hequal
      exact ⟨hattrib, hcomponents, (Except.ok.inj h).symm.trans (by decide)⟩
    · cases h
  · rintro ⟨hattrib, hcomponents, rfl⟩
    refine ⟨hattrib, EXPECTED, ⟨hcomponents, EXPECTED_ascending⟩, ?_⟩
    rw [if_pos ((equal_EXPECTED_iff EXPECTED_ascending (hvalues hcomponents)).mpr rfl)]
    rfl

/-- The two values of the configuration, with whatever is below them. -/
structure IsConfiguration (configuration : Element) : Prop where
  tag : configuration.tag = inNamespace "configuration"
  tags : configuration.children.map Element.tag =
    [inNamespace "verify-metadata", inNamespace "verify-signatures"]
  attributes : ∀ child ∈ configuration.children, child.attrib = []
  values : configuration.children.map Element.text = [some "true".toList, some "false".toList]

/-- What the verification establishes of a file. -/
structure Accepted (root : Element) : Prop where
  tag : root.tag = inNamespace "verification-metadata"
  attributes : root.attrib = [(XSI_SCHEMA_ATTRIBUTE, EXPECTED_SCHEMA_LOCATION)]
  levels : ∃ configuration components, root.children = [configuration, components] ∧
    IsConfiguration configuration ∧ components.tag = inNamespace "components" ∧
    components.attrib = [] ∧ List.Forall₂ IsComponent components.children EXPECTED

/-- The configuration element is checked for its two values. -/
theorem checkConfiguration_eq_ok_iff {configuration : Element}
    (htag : configuration.tag = inNamespace "configuration") :
    checkConfiguration configuration = .ok () ↔ IsConfiguration configuration := by
  simp only [checkConfiguration, guard_eq_ok_iff, not_or, not_not, List.any_eq_true,
    decide_eq_true_eq, not_exists, not_and, and_true]
  constructor
  · rintro ⟨htags, hattributes, hvalues⟩
    exact ⟨htag, htags, hattributes, hvalues⟩
  · rintro ⟨-, htags, hattributes, hvalues⟩
    exact ⟨htags, hattributes, hvalues⟩

/-- The verification returns exactly for accepted files, with the counts of the graph. -/
theorem verifyTree_eq_ok_iff (root : Element) (counts : ℕ × ℕ) :
    verifyTree root = .ok counts ↔ Accepted root ∧ counts = (10, 20) := by
  simp only [verifyTree, guard_eq_ok_iff, not_or, not_not]
  constructor
  · rintro ⟨⟨htag, hattributes⟩, h⟩
    split at h
    · next configuration components hchildren =>
      simp only [guard_eq_ok_iff, bind_eq_ok_iff, not_or, not_not] at h
      obtain ⟨⟨hconfiguration, hcomponents⟩, ⟨⟩, hvalues, hgraph⟩ := h
      obtain ⟨hattrib, hforall, rfl⟩ := (checkComponents_eq_ok_iff components counts).mp hgraph
      exact ⟨⟨htag, hattributes, configuration, components, hchildren,
        (checkConfiguration_eq_ok_iff hconfiguration).mp hvalues, hcomponents, hattrib, hforall⟩,
        rfl⟩
    · cases h
  · rintro ⟨⟨htag, hattributes, configuration, components, hchildren, hvalues, hcomponents,
      hattrib, hforall⟩, rfl⟩
    refine ⟨⟨htag, hattributes⟩, ?_⟩
    simp only [hchildren, guard_eq_ok_iff, bind_eq_ok_iff, not_or, not_not]
    exact ⟨⟨hvalues.tag, hcomponents⟩, (), (checkConfiguration_eq_ok_iff hvalues.tag).mpr hvalues,
      (checkComponents_eq_ok_iff components (10, 20)).mpr ⟨hattrib, hforall, rfl⟩⟩

end RealityCore.DependencyMetadata
