import RealityCore.Publication.Pom

/-!
# The reviewed POM

Without namespaces and texts in front of children, an accepted POM is one reviewed tree of eleven
elements. The names of its children are distinct, so each of them is found under its own name.
-/

namespace RealityCore.Publication

open Outcome (bind_eq_ok_iff guard_eq_ok_iff map_eq_ok_iff)
open Python (Str strip)
open Xml (Element)

/-- An element with a text and nothing else. -/
def scalarElement (name value : String) : Element :=
  .mk name.toList [] (some value.toList) []

/-- The reviewed license. -/
def reviewedLicense : Element :=
  .mk "license".toList [] none
    [scalarElement "name" EXPECTED_LICENSE_NAME, scalarElement "url" EXPECTED_LICENSE_URL]

/-- The reviewed tree. -/
def reviewedPom : Element :=
  .mk "project".toList POM_ATTRIBUTES none
    [scalarElement "modelVersion" "4.0.0", scalarElement "groupId" EXPECTED_GROUP,
      scalarElement "artifactId" EXPECTED_ARTIFACT, scalarElement "version" EXPECTED_VERSION,
      scalarElement "name" EXPECTED_NAME, scalarElement "description" EXPECTED_DESCRIPTION,
      .mk "licenses".toList [] none [reviewedLicense]]

/-! ## Children by their names -/

/-- Among children with distinct names each is the only one with its name. -/
theorem childrenNamed_eq {element child : Element} {name : String}
    (hnodup : (childNames element).Nodup) (hchild : child ∈ element.children)
    (hname : localName child.tag = name.toList) : childrenNamed element name = [child] := by
  rw [childNames] at hnodup
  rw [childrenNamed]
  generalize element.children = children at hnodup hchild ⊢
  induction children with
  | nil => cases hchild
  | cons first rest ih =>
    obtain ⟨hfirst, hrest⟩ := List.nodup_cons.mp hnodup
    rcases List.mem_cons.mp hchild with rfl | hchild
    · rw [List.filter_cons_of_pos (by simpa using hname), List.filter_eq_nil_iff.mpr]
      intro other hother heq
      exact hfirst (List.mem_map.mpr ⟨other, hother, (of_decide_eq_true heq).trans hname.symm⟩)
    · have hne : localName first.tag ≠ name.toList := fun heq =>
        hfirst (List.mem_map.mpr ⟨child, hchild, hname.trans heq.symm⟩)
      rw [List.filter_cons_of_neg (by simpa using hne)]
      exact ih hrest hchild

/-- The only child with a name is found. -/
theorem one_eq {element child : Element} {name : String}
    (h : childrenNamed element name = [child]) : one element name true = .ok (some child) := by
  rw [one, h]
  rfl

/-- The text of a child that has nothing else, without white space around it. -/
theorem scalarText_eq_ok_iff {child : Element} {name : String} {value : Str}
    (hstrip : strip value = value) :
    scalarText child name = .ok value ↔
      child.attrib = [] ∧ child.text = some value ∧ child.children = [] := by
  rw [scalarText, rejectField, reject, guard_eq_ok_iff, not_or, not_not, not_not]
  cases htext : child.text with
  | none => simp [rejectField, reject]
  | some held =>
    dsimp only
    rw [rejectField, reject, guard_eq_ok_iff, not_not]
    constructor
    · rintro ⟨⟨hattrib, hchildren⟩, -, hvalue⟩
      exact ⟨hattrib, congrArg some (Except.ok.inj hvalue), hchildren⟩
    · rintro ⟨hattrib, hvalue, hchildren⟩
      obtain rfl := Option.some.inj hvalue
      exact ⟨⟨hattrib, hchildren⟩, hstrip.symm, rfl⟩

/-- A text is checked by its outline. -/
theorem checkText_eq_ok_iff {element child : Element} {name expected message : String}
    (hstrip : strip expected.toList = expected.toList)
    (h : childrenNamed element name = [child]) (hname : localName child.tag = name.toList) :
    checkText element name expected message = .ok () ↔
      child.outline localName = scalarElement name expected := by
  rw [checkText, text, one_eq h, scalarElement, Element.outline_eq_leaf_iff, bind_eq_ok_iff]
  constructor
  · rintro ⟨value, hvalue, hcheck⟩
    obtain ⟨held, hheld, rfl⟩ := map_eq_ok_iff.mp hvalue
    rw [reject, guard_eq_ok_iff, not_not] at hcheck
    obtain rfl := Option.some.inj hcheck.1
    exact ⟨hname, (scalarText_eq_ok_iff hstrip).mp hheld⟩
  · rintro ⟨-, hscalar⟩
    refine ⟨some expected.toList, map_eq_ok_iff.mpr ⟨_, ?_, rfl⟩, ?_⟩
    · exact (scalarText_eq_ok_iff hstrip).mpr hscalar
    · rw [if_neg (not_not.mpr rfl)]

/-- The names of the children are those of their outlines. -/
theorem childNames_eq_map_tag {element : Element} {outlines : List Element}
    (h : element.children.map (Element.outline localName) = outlines) :
    childNames element = outlines.map Element.tag := by
  rw [childNames, ← h, List.map_map]
  exact List.map_congr_left fun child _ => (Element.tag_outline child).symm

/-- A check of a text passes exactly for its outline, when the names of the children are
distinct. -/
theorem checkText_iff {element child : Element} {name expected message : String}
    {names : List String} (hnames : childNames element = names.map String.toList)
    (hnodup : (names.map String.toList).Nodup) (hchild : child ∈ element.children)
    (hname : localName child.tag = name.toList)
    (hstrip : strip expected.toList = expected.toList) :
    checkText element name expected message = .ok () ↔
      child.outline localName = scalarElement name expected :=
  checkText_eq_ok_iff hstrip (childrenNamed_eq (hnames ▸ hnodup) hchild hname) hname

/-! ## The license -/

/-- The children of a license that is accepted are the reviewed ones. -/
theorem verifyLicense_eq_ok_iff {element : Element} :
    verifyLicense element = .ok () ↔
      element.children.map (Element.outline localName) = reviewedLicense.children := by
  rw [verifyLicense, reject, guard_eq_ok_iff, not_not]
  have hnodup : (["name", "url"].map String.toList).Nodup := by decide
  constructor
  · rintro ⟨hnames, h⟩
    obtain ⟨⟨⟩, hname, hurl⟩ := bind_eq_ok_iff.mp h
    obtain ⟨first, rest, hchildren, hfirst, hrest⟩ := List.map_eq_cons_iff.mp hnames
    obtain ⟨second, rest, rfl, hsecond, hrest⟩ := List.map_eq_cons_iff.mp hrest
    obtain rfl := List.map_eq_nil_iff.mp hrest
    rw [checkText_iff hnames hnodup (hchildren ▸ .head _) hfirst (by decide)] at hname
    rw [checkText_iff hnames hnodup (hchildren ▸ .tail _ (.head _)) hsecond (by decide)] at hurl
    rw [hchildren, List.map_cons, List.map_cons, hname, hurl]
    rfl
  · intro h
    have hnames : childNames element = ["name", "url"].map String.toList :=
      childNames_eq_map_tag h
    obtain ⟨first, rest, hchildren, hfirst, hrest⟩ := List.map_eq_cons_iff.mp h
    obtain ⟨second, rest, rfl, hsecond, hrest⟩ := List.map_eq_cons_iff.mp hrest
    obtain rfl := List.map_eq_nil_iff.mp hrest
    refine ⟨hnames, bind_eq_ok_iff.mpr ⟨(), ?_, ?_⟩⟩
    · refine (checkText_iff hnames hnodup (hchildren ▸ .head _) ?_ (by decide)).mpr hfirst
      exact (Element.outline_eq_leaf_iff.mp hfirst).1
    · refine (checkText_iff hnames hnodup (hchildren ▸ .tail _ (.head _)) ?_
        (by decide)).mpr hsecond
      exact (Element.outline_eq_leaf_iff.mp hsecond).1

/-- Accepted licenses are a single license. -/
theorem verifyLicenses_eq_ok_iff {licenses : Element} :
    verifyLicenses licenses = .ok () ↔
      licenses.attrib = [] ∧ ∃ element, licenses.children = [element] ∧
        localName element.tag = "license".toList ∧ verifyLicense element = .ok () := by
  rw [verifyLicenses, reject, guard_eq_ok_iff, not_or, not_not, not_not]
  constructor
  · rintro ⟨⟨hattrib, hnames⟩, h⟩
    obtain ⟨element, rest, hchildren, hname, hrest⟩ := List.map_eq_cons_iff.mp hnames
    obtain rfl := List.map_eq_nil_iff.mp hrest
    have hfound : childrenNamed licenses "license" = [element] :=
      childrenNamed_eq (hnames ▸ List.nodup_singleton _) (hchildren ▸ .head _) hname
    rw [hfound] at h
    exact ⟨hattrib, element, hchildren, hname, h⟩
  · rintro ⟨hattrib, element, hchildren, hname, h⟩
    have hnames : childNames licenses = ["license".toList] := by
      rw [childNames, hchildren, List.map_cons, hname, List.map_nil]
    have hfound : childrenNamed licenses "license" = [element] :=
      childrenNamed_eq (hnames ▸ List.nodup_singleton _) (hchildren ▸ .head _) hname
    rw [hfound]
    exact ⟨⟨hattrib, hnames⟩, h⟩

/-- The outline of accepted licenses, when the license has no attributes. -/
theorem outline_licenses_iff {licenses : Element} :
    licenses.outline localName = .mk "licenses".toList [] none [reviewedLicense] ↔
      localName licenses.tag = "licenses".toList ∧ verifyLicenses licenses = .ok () ∧
        ∀ element ∈ licenses.children, element.attrib = [] := by
  rw [Element.outline_eq_node_iff, verifyLicenses_eq_ok_iff]
  refine and_congr_right fun _ => ?_
  constructor
  · rintro ⟨hattrib, h⟩
    obtain ⟨element, rest, hchildren, houtline, hrest⟩ := List.map_eq_cons_iff.mp h
    obtain rfl := List.map_eq_nil_iff.mp hrest
    obtain ⟨hname, hnone, hlicense⟩ := Element.outline_eq_node_iff.mp houtline
    refine ⟨⟨hattrib, element, hchildren, hname, verifyLicense_eq_ok_iff.mpr hlicense⟩, ?_⟩
    rw [hchildren]
    exact List.forall_mem_singleton.mpr hnone
  · rintro ⟨⟨hattrib, element, hchildren, hname, hlicense⟩, hnone⟩
    have hnone : element.attrib = [] := hnone element (hchildren ▸ .head _)
    rw [hchildren, List.map_cons, List.map_nil]
    refine ⟨hattrib, congrArg (fun license => [license]) ?_⟩
    exact Element.outline_eq_node_iff.mpr ⟨hname, hnone, verifyLicense_eq_ok_iff.mp hlicense⟩

/-! ## The whole tree -/

/-- The attributes of all elements below the root are those of the outline. -/
theorem attrib_iterAll_children {root : Element} (h : root.outline localName = reviewedPom) :
    (Element.iterAll root.children).map Element.attrib =
      (Element.iterAll reviewedPom.children).map Element.attrib := by
  rw [← h, Element.children_outline, ← Element.outlineAll_eq_map, Element.iterAll_outlineAll,
    List.map_map]
  exact List.map_congr_left fun element _ => (Element.attrib_outline element).symm

/-- Below the root the reviewed tree has no attributes. -/
theorem none_of_mem_attrib :
    ∀ attrib ∈ (Element.iterAll reviewedPom.children).map Element.attrib, attrib = [] := by
  decide

/-- No element below a root with the reviewed outline has attributes. -/
theorem attrib_eq_nil {root : Element} (h : root.outline localName = reviewedPom) :
    ∀ element ∈ Element.iterAll root.children, element.attrib = [] := by
  intro element helement
  have hmem : element.attrib ∈ (Element.iterAll root.children).map Element.attrib :=
    List.mem_map_of_mem helement
  rw [attrib_iterAll_children h] at hmem
  exact none_of_mem_attrib _ hmem

/-- A root with the reviewed names of children has one child for each of them. -/
theorem exists_children {root : Element} (hnames : childNames root = POM_FIELDS) :
    ∃ model group artifact version name description licenses,
      root.children = [model, group, artifact, version, name, description, licenses] ∧
        localName model.tag = "modelVersion".toList ∧ localName group.tag = "groupId".toList ∧
        localName artifact.tag = "artifactId".toList ∧ localName version.tag = "version".toList ∧
        localName name.tag = "name".toList ∧ localName description.tag = "description".toList ∧
        localName licenses.tag = "licenses".toList := by
  obtain ⟨model, rest, hchildren, hmodel, hrest⟩ := List.map_eq_cons_iff.mp hnames
  obtain ⟨group, rest, rfl, hgroup, hrest⟩ := List.map_eq_cons_iff.mp hrest
  obtain ⟨artifact, rest, rfl, hartifact, hrest⟩ := List.map_eq_cons_iff.mp hrest
  obtain ⟨version, rest, rfl, hversion, hrest⟩ := List.map_eq_cons_iff.mp hrest
  obtain ⟨name, rest, rfl, hname, hrest⟩ := List.map_eq_cons_iff.mp hrest
  obtain ⟨description, rest, rfl, hdescription, hrest⟩ := List.map_eq_cons_iff.mp hrest
  obtain ⟨licenses, rest, rfl, hlicenses, hrest⟩ := List.map_eq_cons_iff.mp hrest
  obtain rfl := List.map_eq_nil_iff.mp hrest
  exact ⟨model, group, artifact, version, name, description, licenses, hchildren, hmodel, hgroup,
    hartifact, hversion, hname, hdescription, hlicenses⟩

/-- A root with the reviewed names of children has no dependencies. -/
theorem dependencies_eq_nil {root : Element} (hnames : childNames root = POM_FIELDS) :
    childrenNamed root "dependencies" = [] := by
  refine List.filter_eq_nil_iff.mpr fun child hchild heq => ?_
  have hmem : localName child.tag ∈ childNames root := List.mem_map_of_mem hchild
  rw [hnames, of_decide_eq_true heq] at hmem
  exact absurd hmem (by decide)

/-- The last check passes when no element below the root has attributes. -/
theorem any_attrib_eq_false_iff {elements : List Element} :
    (Element.iterAll elements).any (·.attrib ≠ []) = false ↔
      ∀ element ∈ Element.iterAll elements, element.attrib = [] := by
  simp

/-- A tree is accepted exactly when its outline is the reviewed tree. -/
theorem verifyPomTree_eq_ok_iff {root : Element} :
    verifyPomTree root = .ok () ↔ root.outline localName = reviewedPom := by
  have hnodup : POM_FIELDS.Nodup := by decide
  constructor
  · intro h
    simp only [verifyPomTree, reject, guard_eq_ok_iff, not_or, not_not, bind_eq_ok_iff] at h
    obtain ⟨⟨htag, hattrib⟩, hnames, ⟨⟩, ha, ⟨⟩, hb, ⟨⟩, hc, ⟨⟩, hd, ⟨⟩, he, ⟨⟩, hf, found, hfound,
      h⟩ := h
    obtain ⟨model, group, artifact, version, name, description, licenses, hchildren, hmodel, hgroup,
      hartifact, hversion, hname, hdescription, hlicenses⟩ := exists_children hnames
    rw [checkText_iff hnames hnodup (by simp [hchildren]) hmodel (by decide)] at ha
    rw [checkText_iff hnames hnodup (by simp [hchildren]) hgroup (by decide)] at hb
    rw [checkText_iff hnames hnodup (by simp [hchildren]) hartifact (by decide)] at hc
    rw [checkText_iff hnames hnodup (by simp [hchildren]) hversion (by decide)] at hd
    rw [checkText_iff hnames hnodup (by simp [hchildren]) hname (by decide)] at he
    rw [checkText_iff hnames hnodup (by simp [hchildren]) hdescription (by decide)] at hf
    have hone := one_eq (childrenNamed_eq (hnames ▸ hnodup) (by simp [hchildren]) hlicenses)
    obtain rfl := Except.ok.inj (hone.symm.trans hfound)
    simp only [bind_eq_ok_iff, guard_eq_ok_iff] at h
    obtain ⟨⟨⟩, hverified, -, hany, -⟩ := h
    have hbelow := any_attrib_eq_false_iff.mp (Bool.eq_false_of_not_eq_true hany)
    have hl := outline_licenses_iff.mpr ⟨hlicenses, hverified, fun element helement =>
      hbelow element (Element.mem_iterAll_of_mem_children (by simp [hchildren]) helement)⟩
    refine Element.outline_eq_node_iff.mpr ⟨htag, hattrib, ?_⟩
    rw [hchildren]
    simp only [List.map_cons, List.map_nil, ha, hb, hc, hd, he, hf, hl]
  · intro h
    obtain ⟨htag, hattrib, hmap⟩ := Element.outline_eq_node_iff.mp h
    have hnames : childNames root = POM_FIELDS := childNames_eq_map_tag hmap
    obtain ⟨model, group, artifact, version, name, description, licenses, hchildren, hmodel, hgroup,
      hartifact, hversion, hname, hdescription, hlicenses⟩ := exists_children hnames
    simp only [hchildren, List.map_cons, List.map_nil, List.cons.injEq, and_true] at hmap
    obtain ⟨ha, hb, hc, hd, he, hf, hl⟩ := hmap
    have hone := one_eq (childrenNamed_eq (hnames ▸ hnodup) (by simp [hchildren]) hlicenses)
    have hverified := (outline_licenses_iff.mp hl).2.1
    simp only [verifyPomTree, reject, guard_eq_ok_iff, not_or, not_not, bind_eq_ok_iff]
    refine ⟨⟨htag, hattrib⟩, hnames, (), ?_, (), ?_, (), ?_, (), ?_, (), ?_, (), ?_, some licenses,
      hone, bind_eq_ok_iff.mpr ⟨(), hverified, ?_⟩⟩
    · exact (checkText_iff hnames hnodup (by simp [hchildren]) hmodel (by decide)).mpr ha
    · exact (checkText_iff hnames hnodup (by simp [hchildren]) hgroup (by decide)).mpr hb
    · exact (checkText_iff hnames hnodup (by simp [hchildren]) hartifact (by decide)).mpr hc
    · exact (checkText_iff hnames hnodup (by simp [hchildren]) hversion (by decide)).mpr hd
    · exact (checkText_iff hnames hnodup (by simp [hchildren]) hname (by decide)).mpr he
    · exact (checkText_iff hnames hnodup (by simp [hchildren]) hdescription (by decide)).mpr hf
    · rw [if_neg (not_not.mpr (dependencies_eq_nil hnames)),
        any_attrib_eq_false_iff.mpr (attrib_eq_nil h)]
      rfl

/-- The names of the elements of the reviewed tree, in document order. -/
def POM_NAMES : List Str :=
  ["project", "modelVersion", "groupId", "artifactId", "version", "name", "description", "licenses",
    "license", "name", "url"].map String.toList

/-- The names and the texts of the elements without children are those of the outlines. -/
theorem leaves_outline (elements : List Element) :
    ((elements.map (Element.outline localName)).filter fun element => element.children.isEmpty).map
        (fun element => (element.tag, element.text)) =
      (elements.filter fun element => element.children.isEmpty).map
        fun element => (localName element.tag, element.text) := by
  induction elements with
  | nil => rfl
  | cons element elements ih =>
    obtain ⟨tag, attrib, text, children⟩ := element
    cases children with
    | nil =>
      rw [List.map_cons, List.filter_cons_of_pos rfl, List.map_cons, ih,
        List.filter_cons_of_pos rfl, List.map_cons]
      rfl
    | cons child rest =>
      rw [List.map_cons, List.filter_cons_of_neg Bool.false_ne_true, ih,
        List.filter_cons_of_neg Bool.false_ne_true]

/-- An accepted tree is the reviewed tree up to namespaces and texts in front of children: it has
eleven elements with the reviewed names in this order and attributes at the root only, and each
scalar has the reviewed text and no children. -/
theorem verifyPomTree_exact (root : Element) (h : verifyPomTree root = .ok ()) :
    root.outline localName = reviewedPom ∧
      root.iter.map (fun element => localName element.tag) = POM_NAMES ∧
      root.attrib = POM_ATTRIBUTES ∧
      (∀ element ∈ Element.iterAll root.children, element.attrib = []) ∧
      (root.iter.filter fun element => element.children.isEmpty).map
          (fun element => (localName element.tag, element.text)) =
        [("modelVersion", "4.0.0"), ("groupId", EXPECTED_GROUP), ("artifactId", EXPECTED_ARTIFACT),
          ("version", EXPECTED_VERSION), ("name", EXPECTED_NAME),
          ("description", EXPECTED_DESCRIPTION), ("name", EXPECTED_LICENSE_NAME),
          ("url", EXPECTED_LICENSE_URL)].map
            fun scalar => (scalar.1.toList, some scalar.2.toList) := by
  have houtline := verifyPomTree_eq_ok_iff.mp h
  have hiter : root.iter.map (Element.outline localName) = reviewedPom.iter := by
    rw [← houtline, Element.iter_outline]
  have hnames : root.iter.map (fun element => localName element.tag) =
      reviewedPom.iter.map Element.tag := by
    rw [← hiter, List.map_map]
    exact List.map_congr_left fun element _ => (Element.tag_outline element).symm
  refine ⟨houtline, hnames, (Element.outline_eq_node_iff.mp houtline).2.1, attrib_eq_nil houtline,
    ?_⟩
  rw [← leaves_outline, hiter]
  rfl

/-- The reviewed tree in the namespace of Maven. -/
def publishedPom : Element :=
  reviewedPom.outline ("\x7bhttp://maven.apache.org/POM/4.0.0\x7d".toList ++ ·)

/-- The published tree is accepted and has the reviewed names. -/
theorem verifyPomTree_exact_publishedPom :
    verifyPomTree publishedPom = .ok () ∧
      publishedPom.iter.map (fun element => localName element.tag) = POM_NAMES := by
  have hok : verifyPomTree publishedPom = .ok () := verifyPomTree_eq_ok_iff.mpr rfl
  exact ⟨hok, (verifyPomTree_exact publishedPom hok).2.1⟩

end RealityCore.Publication
