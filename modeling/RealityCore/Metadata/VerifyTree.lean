import RealityCore.Library.AscendingDict
import RealityCore.Library.Regex
import RealityCore.Library.XmlElement

/-!
# Verifying the dependency metadata

`verifyTree` walks the verification file level by level and compares the digests it finds
with the reviewed graph. Each level is checked by the tags and the attributes of its
elements; what is below a checksum or a configuration value is not looked at.
-/

namespace RealityCore.DependencyMetadata

open Python (Str Dict)
open Regex (Pattern fullMatch)
open Xml (Element)

def NAMESPACE : String := "\x7bhttps://schema.gradle.org/dependency-verification\x7d"

def XSI_SCHEMA_ATTRIBUTE : Str :=
  "\x7bhttp://www.w3.org/2001/XMLSchema-instance\x7dschemaLocation".toList

def EXPECTED_SCHEMA_LOCATION : Str :=
  ("https://schema.gradle.org/dependency-verification " ++
    "https://schema.gradle.org/dependency-verification/dependency-verification-1.3.xsd").toList

/-- `[0-9a-f]{64}\Z` -/
def SHA256_RE : Pattern Char :=
  .seq (.times (.set fun c => c.isDigit || ('a' ≤ c && c ≤ 'f')) 64) .atEnd

def REVIEWED_ORIGINS : List String :=
  ["Generated by Gradle", "Verified from Maven Central download"]

/-- A tag of the verification file. -/
def inNamespace (name : String) : Str := (NAMESPACE ++ name).toList

/-- The coordinates of a component: its group, name and version. -/
abbrev Key := List Str

/-- The reviewed digests: coordinates, and for each artifact its name and SHA-256. -/
abbrev Graph := Dict Key (Dict Str Str)

def EXPECTED_TABLE : List (List String × List (String × String)) :=
  [(["org.apiguardian", "apiguardian-api", "1.1.2"],
      [("apiguardian-api-1.1.2.jar",
          "b509448ac506d607319f182537f0b35d71007582ec741832a1f111e5b5b70b38"),
        ("apiguardian-api-1.1.2.module",
          "e08028131375b357d1d28734e9a4fb4216da84b240641cb3ef7e7c7d628223fc")]),
    (["org.junit", "junit-bom", "5.11.4"],
      [("junit-bom-5.11.4.module",
          "a9a4f27be94e99b9d570162d246a80f686d277d5d31aeb5481047cf51daf46e4"),
        ("junit-bom-5.11.4.pom",
          "19d4b747b204805325b6334553296f986562277a4ac1cb5e593a5e4c4f5e4115")]),
    (["org.junit.jupiter", "junit-jupiter", "5.11.4"],
      [("junit-jupiter-5.11.4.jar",
          "aa880e4afba87d447357e4c1fc098c5cb1d200cb9403496c00d3b35a5bd0e8db"),
        ("junit-jupiter-5.11.4.module",
          "a3c353ed7516ae1835eab95a087f4f09a5b0cc7d0b8b039fe77a039b8ab52103")]),
    (["org.junit.jupiter", "junit-jupiter-api", "5.11.4"],
      [("junit-jupiter-api-5.11.4.jar",
          "ab83ef9e51ac4597d59d26b4b58812129550e2f579a404c8af7d09f5ce5b4293"),
        ("junit-jupiter-api-5.11.4.module",
          "a6ea2fefb3aa5868fd7a780ae1da1162e76dda3760b48015c2a419d2372ff3cb")]),
    (["org.junit.jupiter", "junit-jupiter-engine", "5.11.4"],
      [("junit-jupiter-engine-5.11.4.jar",
          "cdf8ac59f3fad774ca738ad03890950eeb91833ef0e8908753177edd26f1581c"),
        ("junit-jupiter-engine-5.11.4.module",
          "db91163a8af005a32798565dd67537725189590deab6da03b31dbdda45686a18")]),
    (["org.junit.jupiter", "junit-jupiter-params", "5.11.4"],
      [("junit-jupiter-params-5.11.4.jar",
          "02a6e015de7ce94ac7f256e7fa05b8091dea861fe79a555a7993313d0f6c7d96"),
        ("junit-jupiter-params-5.11.4.module",
          "58865b8b4b998b9ab19c13f8e413b7e1d4819374dd5df69760c4c0b0bc4e9895")]),
    (["org.junit.platform", "junit-platform-commons", "1.11.4"],
      [("junit-platform-commons-1.11.4.jar",
          "9edd969b0d0670c54105bc91ae79bd1c6f503e12115faba82073b84c86bbc334"),
        ("junit-platform-commons-1.11.4.module",
          "0b9e2625c8f468b3cd4132cc0a805f89fe41f852d1adfff75f3eb1465ca1cb6b")]),
    (["org.junit.platform", "junit-platform-engine", "1.11.4"],
      [("junit-platform-engine-1.11.4.jar",
          "b1dd998f64f9acadc15966d9cd3d08074662677b3e390f0a38fcbf0bb4c72330"),
        ("junit-platform-engine-1.11.4.module",
          "bf6ce1fb5951dc6c7de36adeef6aeaf78ef82d63831c5ccebce388da9fc5fe25")]),
    (["org.junit.platform", "junit-platform-launcher", "1.11.4"],
      [("junit-platform-launcher-1.11.4.jar",
          "d7430bd029e7fcced53ee445e4d2d1a8a1e043ea4c4df43b6335a857f79761ae"),
        ("junit-platform-launcher-1.11.4.module",
          "60c4533209ba587b1cda7d72c087f351a3231f9b91c94f3f76394b0e22341cc4")]),
    (["org.opentest4j", "opentest4j", "1.3.0"],
      [("opentest4j-1.3.0.jar",
          "48e2df636cab6563ced64dcdff8abb2355627cb236ef0bf37598682ddf742f1b"),
        ("opentest4j-1.3.0.module",
          "48bf1d6c8b5dc94f74652bd17900f654deb714350248cf5e8fca27b9090c8e0d")])]

def EXPECTED : Graph :=
  EXPECTED_TABLE.map fun (key, artifacts) =>
    (key.map String.toList, artifacts.map fun (name, digest) => (name.toList, digest.toList))

/-- The attribute lists of the three kinds of entries. -/
def COMPONENT_ATTRIBUTES : List Str := ["group".toList, "name".toList, "version".toList]

def ARTIFACT_ATTRIBUTES : List Str := ["name".toList]

def CHECKSUM_ATTRIBUTES : List Str := ["value".toList, "origin".toList]

/-- The coordinates of a component element. -/
def coordinates (component : Element) : Key := COMPONENT_ATTRIBUTES.map component.get

/-- The checks of a checksum element. -/
def readChecksum (checksum : Element) : Except String Str :=
  if checksum.attrib.keys ≠ CHECKSUM_ATTRIBUTES ∨
      fullMatch SHA256_RE (checksum.get "value".toList) = false then
    .error "artifact SHA-256 is malformed"
  else if checksum.get "origin".toList ∉ REVIEWED_ORIGINS.map String.toList then
    .error "artifact SHA-256 origin is not reviewed"
  else .ok (checksum.get "value".toList)

/-- One round of the loop over the artifacts of a component. -/
def readArtifact (previous : Option Str) (_ : Dict Str Str) (artifact : Element) :
    Except String (Str × Str) :=
  if artifact.tag ≠ inNamespace "artifact" ∨ artifact.attrib.keys ≠ ARTIFACT_ATTRIBUTES then
    .error "artifact entry is not canonical"
  else
    let name := artifact.get "name".toList
    if previous.any (name ≤ ·) then .error "artifacts are not strictly sorted"
    else
      match artifact.children with
      | [checksum] =>
        if checksum.tag ≠ inNamespace "sha256" then
          .error "artifact must have exactly one SHA-256"
        else (readChecksum checksum).map fun digest => (name, digest)
      | _ => .error "artifact must have exactly one SHA-256"

/-- One round of the loop over the components. -/
def readComponent (previous : Option Key) (actual : Graph) (component : Element) :
    Except String (Key × Dict Str Str) :=
  if component.tag ≠ inNamespace "component" ∨
      component.attrib.keys ≠ COMPONENT_ATTRIBUTES then
    .error "component coordinates are not canonical"
  else
    let key := coordinates component
    if previous.any (key ≤ ·) then .error "components are not strictly sorted"
    else if key ∈ actual.keys then .error "duplicate dependency component"
    else (Dict.gather readArtifact none [] component.children).map fun values => (key, values)

/-- The checks of the configuration element. -/
def checkConfiguration (configuration : Element) : Except String Unit :=
  let children := configuration.children
  if children.map Element.tag ≠ [inNamespace "verify-metadata", inNamespace "verify-signatures"]
  then .error "verification configuration is not canonical"
  else if (children.any fun child => child.attrib ≠ []) ∨
      children.map Element.text ≠ [some "true".toList, some "false".toList] then
    .error "verification configuration values are not canonical"
  else .ok ()

/-- The checks of the components element, with the number of components and of artifacts. -/
def checkComponents (components : Element) : Except String (ℕ × ℕ) :=
  if components.attrib ≠ [] then .error "components element has unexpected attributes"
  else do
    let actual ← Dict.gather readComponent none [] components.children
    if actual.equal (Dict.equal fun a b => decide (a = b)) EXPECTED then
      .ok (actual.length, (actual.map fun item => item.2.length).sum)
    else .error "dependency verification graph differs from the reviewed exact graph"

/-- `_verify_tree` -/
def verifyTree (root : Element) : Except String (ℕ × ℕ) :=
  if root.tag ≠ inNamespace "verification-metadata" ∨
      root.attrib ≠ [(XSI_SCHEMA_ATTRIBUTE, EXPECTED_SCHEMA_LOCATION)] then
    .error "verification metadata root is not canonical"
  else
    match root.children with
    | [configuration, components] =>
      if configuration.tag ≠ inNamespace "configuration" ∨
          components.tag ≠ inNamespace "components" then
        .error "verification metadata top-level order is not canonical"
      else do
        checkConfiguration configuration
        checkComponents components
    | _ => .error "verification metadata top-level order is not canonical"

end RealityCore.DependencyMetadata
