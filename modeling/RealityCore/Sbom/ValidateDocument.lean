import RealityCore.Library.JsonDumps
import RealityCore.Sbom.Walk

/-!
# The checks of a bill of materials

`validateDocument` compares the keys of three objects in their order, and the values with those
of the reviewed document under the equality of Python.
-/

namespace RealityCore.Sbom

open Python (Str Text CodePoint Json Dict JsonObject points)

/-- `_root_reference` -/
def rootReference : Json :=
  .str (points "pkg:maven/io.github.yu1sh.reality/reality-core@0.1.0-SNAPSHOT")

def expectedTopLevel : List Text :=
  [points "bomFormat", points "specVersion", points "version", points "metadata",
    points "components", points "dependencies"]

def requiredRootKeys : List Text :=
  [points "type", points "group", points "name", points "version", points "bom-ref",
    points "purl"]

def expectedRoot : List (Text × Json) :=
  [(points "type", .str (points "library")),
    (points "group", .str (points "io.github.yu1sh.reality")),
    (points "name", .str (points "reality-core")),
    (points "version", .str (points "0.1.0-SNAPSHOT")),
    (points "bom-ref", rootReference), (points "purl", rootReference)]

/-- The one dependency of the reviewed document. -/
def expectedDependency : List (Text × Json) :=
  [(points "ref", rootReference), (points "dependsOn", .list [])]

def TEST_TERMS : List String := ["junit", "testimplementation", "test-runtime", "testscope"]

/-- `document.get(key) == value` -/
def holds (members : List (Text × Json)) (key : String) (value : Json) : Bool :=
  (Dict.get? members (points key)).any fun found => Json.same found value

/-- The metadata: an object with the root component only, which has the reviewed members. -/
def validateMetadata (metadata : Option Json) : Result Unit :=
  match metadata with
  | some (.object members) =>
    if Dict.keys members ≠ [points "component"] then
      refuse "SBOM metadata must contain only the root component"
    else
      match Dict.get? members (points "component") with
      | some (.object root) =>
        if Dict.keys root ≠ requiredRootKeys then refuse "SBOM root component is not canonical"
        else if !Json.same (.object root) (.object expectedRoot) then
          refuse "SBOM root component is not the reviewed component"
        else .ok ()
      | _ => refuse "SBOM root component is missing"
  | _ => refuse "SBOM metadata must contain only the root component"

/-- The terms of test scopes in the written document. -/
def hasTestTerm (document : List (Text × Json)) : Bool :=
  TEST_TERMS.any fun term =>
    decide (term.toList <:+: (Json.dumps (.object document)).map Char.toLower)

/-- `validate_document` -/
def validateDocument (isAlnum : CodePoint → Bool) (document : JsonObject) : Result Unit := do
  let members := document.members
  if Dict.keys members ≠ expectedTopLevel then refuse "SBOM top-level keys are not canonical"
  else if !holds members "bomFormat" (.str (points "CycloneDX")) ||
      !holds members "specVersion" (.str (points "1.5")) then
    refuse "SBOM format/specification is incorrect"
  else if !holds members "version" (.int 1) then refuse "SBOM version must be deterministic 1"
  else
    validateMetadata (Dict.get? members (points "metadata"))
    if !holds members "components" (.list []) then
      refuse "runtime SBOM must contain zero dependency components"
    else if !holds members "dependencies" (.list [.object expectedDependency]) then
      refuse "SBOM dependency relationship is not canonical"
    else if hasTestTerm members then refuse "test-scope content entered the runtime SBOM"
    else rejectPathsAndTimestamps isAlnum members

end RealityCore.Sbom
