import RealityCore.Library.XmlElement
import RealityCore.Publication.Files

/-!
# The published POM

The root, the names of its children and their texts are checked one by one, and a last pass over the
whole tree refuses attributes. Namespaces are dropped from the tags, and texts in front of children
are not read.
-/

namespace RealityCore.Publication

open Python (Bytes Files PurePath Str points strip)
open Xml (Element ParserFailure)

def EXPECTED_GROUP : String := "io.github.yu1sh.reality"
def EXPECTED_ARTIFACT : String := "reality-core"
def EXPECTED_VERSION : String := "0.1.0-SNAPSHOT"
def EXPECTED_NAME : String := "reality-core"
def EXPECTED_DESCRIPTION : String :=
  "Minecraft-independent contracts for the Reality life simulation platform"
def EXPECTED_LICENSE_NAME : String := "Apache License, Version 2.0"
def EXPECTED_LICENSE_URL : String := "https://www.apache.org/licenses/LICENSE-2.0.txt"

/-- The attributes of the root. -/
def POM_ATTRIBUTES : List (Str × Str) :=
  [("\x7bhttp://www.w3.org/2001/XMLSchema-instance\x7dschemaLocation".toList,
    "http://maven.apache.org/POM/4.0.0 https://maven.apache.org/xsd/maven-4.0.0.xsd".toList)]

/-- The names of the children of the root. -/
def POM_FIELDS : List Str :=
  ["modelVersion", "groupId", "artifactId", "version", "name", "description", "licenses"].map
    String.toList

/-- `_local(tag)` -/
def localName (tag : Str) : Str := tag.rtakeWhile (· ≠ '\x7d')

/-- `[_local(child.tag) for child in element]` -/
def childNames (element : Element) : List Str :=
  element.children.map fun child => localName child.tag

/-- `_children(element, name)` -/
def childrenNamed (element : Element) (name : String) : List Element :=
  element.children.filter fun child => localName child.tag = name.toList

/-- `raise PublicationError(f"POM field {name} {problem}")` -/
def rejectField {α : Type} (name problem : String) : Except Failure α :=
  reject ("POM field " ++ name ++ " " ++ problem)

/-- `_one(element, name, required=required)` -/
def one (element : Element) (name : String) (required : Bool) : Except Failure (Option Element) :=
  let values := childrenNamed element name
  if 1 < values.length ∨ (required ∧ values = []) then rejectField name "is missing or duplicated"
  else .ok values.head?

/-- The text of a child that has been found. -/
def scalarText (child : Element) (name : String) : Except Failure Str :=
  if child.attrib ≠ [] ∨ child.children ≠ [] then rejectField name "is not a scalar"
  else
    match child.text with
    | none => rejectField name "is not canonical text"
    | some value =>
      if value ≠ strip value then rejectField name "is not canonical text" else .ok value

/-- `_text(element, name, required=required)` -/
def text (element : Element) (name : String) (required : Bool) : Except Failure (Option Str) := do
  let child ← one element name required
  match child with
  | none => .ok none
  | some child => (scalarText child name).map some

/-- `if _text(element, name) != expected: raise PublicationError(message)` -/
def checkText (element : Element) (name expected message : String) : Except Failure Unit := do
  let value ← text element name true
  if value ≠ some expected.toList then reject message else .ok ()

/-- The checks of the license. -/
def verifyLicense (licenseElement : Element) : Except Failure Unit :=
  if childNames licenseElement ≠ ["name", "url"].map String.toList then
    reject "POM license fields are not canonical"
  else do
    checkText licenseElement "name" EXPECTED_LICENSE_NAME "POM license name is incorrect"
    checkText licenseElement "url" EXPECTED_LICENSE_URL "POM license URL is incorrect"

/-- The checks of the licenses. -/
def verifyLicenses (licenses : Element) : Except Failure Unit :=
  if licenses.attrib ≠ [] ∨ childNames licenses ≠ ["license".toList] then
    reject "POM licenses are not canonical"
  else
    match childrenNamed licenses "license" with
    | [licenseElement] => verifyLicense licenseElement
    | _ => reject "POM must contain exactly one license"

/-- `_verify_pom`, of the element tree. -/
def verifyPomTree (root : Element) : Except Failure Unit :=
  if localName root.tag ≠ "project".toList ∨ root.attrib ≠ POM_ATTRIBUTES then
    reject "POM root is not canonical"
  else if childNames root ≠ POM_FIELDS then
    reject "POM element order or fields are not canonical"
  else do
    checkText root "modelVersion" "4.0.0" "POM modelVersion is incorrect"
    checkText root "groupId" EXPECTED_GROUP "POM groupId is incorrect"
    checkText root "artifactId" EXPECTED_ARTIFACT "POM artifactId is incorrect"
    checkText root "version" EXPECTED_VERSION "POM version is incorrect"
    checkText root "name" EXPECTED_NAME "POM name is incorrect"
    checkText root "description" EXPECTED_DESCRIPTION "POM description is incorrect"
    let licenses ← one root "licenses" true
    match licenses with
    | none => .error .assertionError
    | some licenses => do
      verifyLicenses licenses
      if childrenNamed root "dependencies" ≠ [] then
        reject "runtime POM must not contain dependencies"
      else if (Element.iterAll root.children).any (·.attrib ≠ []) then
        reject "POM contains unexpected attributes"
      else .ok ()

/-- `_verify_pom(path)` -/
def verifyPom (fromString : Bytes → Except ParserFailure Element) (files : Files)
    (path : PurePath) : Except Failure Unit :=
  match read files path with
  | .error .osError => reject "POM is not valid XML"
  | .error failure => .error failure
  | .ok data =>
    match fromString data with
    | .error .parseError => reject "POM is not valid XML"
    | .error .otherError => .error .otherError
    | .ok root => verifyPomTree root

end RealityCore.Publication
