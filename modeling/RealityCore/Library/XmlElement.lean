import RealityCore.Library.PythonDict
import RealityCore.Library.PythonText

/-!
# XML element trees

An element has a tag, its attributes in document order, the text before its first child, and
its children in document order. The parser itself is not modelled, only how it fails.
-/

namespace Xml

open Python (Str Dict)

/-- How `ET.fromstring` fails: by a `ParseError`, or by a `LookupError` or a `ValueError` for a
declared encoding that is unknown or takes several octets a character. -/
inductive ParserFailure where
  | parseError
  | otherError
  deriving DecidableEq

/-- An element with everything below it. -/
inductive Element where
  | mk (tag : Str) (attrib : Dict Str Str) (text : Option Str) (children : List Element)

namespace Element

/-- The tag, with its namespace in braces. -/
def tag : Element → Str
  | mk tag _ _ _ => tag

/-- The attributes in document order. -/
def attrib : Element → Dict Str Str
  | mk _ attrib _ _ => attrib

/-- The text before the first child. -/
def text : Element → Option Str
  | mk _ _ text _ => text

/-- `list(element)` -/
def children : Element → List Element
  | mk _ _ _ children => children

/-- `element.attrib[key]` for a key whose presence has been checked. -/
def get (element : Element) (key : Str) : Str := (element.attrib.lookup key).getD []

mutual

/-- `element.iter()`: the element and all below it, in document order. -/
def iter : Element → List Element
  | mk tag attrib text children => mk tag attrib text children :: iterAll children

/-- The elements and all below them. -/
def iterAll : List Element → List Element
  | [] => []
  | element :: rest => iter element ++ iterAll rest

end

mutual

/-- The element with other names in place of its tags, and without the text in front of children. -/
def outline (name : Str → Str) : Element → Element
  | mk tag attrib text [] => mk (name tag) attrib text []
  | mk tag attrib _ (child :: rest) =>
    mk (name tag) attrib none (outline name child :: outlineAll name rest)

/-- The outlines of the elements. -/
def outlineAll (name : Str → Str) : List Element → List Element
  | [] => []
  | element :: rest => outline name element :: outlineAll name rest

end

section Outline

variable {name : Str → Str}

/-- An element comes before all below it. -/
theorem iter_eq (element : Element) : element.iter = element :: iterAll element.children := by
  obtain ⟨tag, attrib, text, children⟩ := element
  rw [iter]
  rfl

/-- The elements below some elements, themselves included, come one after the other. -/
theorem iterAll_eq_flatMap (elements : List Element) :
    iterAll elements = elements.flatMap iter := by
  induction elements with
  | nil => rfl
  | cons element elements ih => rw [iterAll, ih, List.flatMap_cons]

/-- A child of one of the elements is below them. -/
theorem mem_iterAll_of_mem_children {elements : List Element} {parent child : Element}
    (hparent : parent ∈ elements) (hchild : child ∈ parent.children) :
    child ∈ iterAll elements := by
  rw [iterAll_eq_flatMap]
  refine List.mem_flatMap.mpr ⟨parent, hparent, ?_⟩
  rw [iter_eq, iterAll_eq_flatMap]
  refine List.mem_cons_of_mem _ (List.mem_flatMap.mpr ⟨child, hchild, ?_⟩)
  rw [iter_eq]
  exact List.mem_cons_self

/-- Elements are outlined one by one. -/
theorem outlineAll_eq_map (elements : List Element) :
    outlineAll name elements = elements.map (outline name) := by
  induction elements with
  | nil => rfl
  | cons element elements ih => rw [outlineAll, ih, List.map_cons]

/-- The tag of an outline is the name of the tag. -/
@[simp] theorem tag_outline (element : Element) :
    (element.outline name).tag = name element.tag := by
  obtain ⟨tag, attrib, text, children⟩ := element
  cases children <;> rfl

/-- An outline has the attributes of the element. -/
@[simp] theorem attrib_outline (element : Element) :
    (element.outline name).attrib = element.attrib := by
  obtain ⟨tag, attrib, text, children⟩ := element
  cases children <;> rfl

/-- The children of an outline are the outlines of the children. -/
@[simp] theorem children_outline (element : Element) :
    (element.outline name).children = element.children.map (outline name) := by
  obtain ⟨tag, attrib, text, children⟩ := element
  cases children with
  | nil => rfl
  | cons child rest => rw [← outlineAll_eq_map]; rfl

/-- An outline without children is that of an element with its text. -/
theorem outline_eq_leaf_iff {element : Element} {tag : Str} {attrib : Dict Str Str}
    {text : Option Str} :
    element.outline name = mk tag attrib text [] ↔
      name element.tag = tag ∧ element.attrib = attrib ∧ element.text = text ∧
        element.children = [] := by
  obtain ⟨tag', attrib', text', children⟩ := element
  cases children with
  | nil => simp [outline, Element.tag, Element.attrib, Element.text, Element.children]
  | cons child rest => simp [outline, Element.children]

/-- An outline with children is that of an element with any text. -/
theorem outline_eq_node_iff {element child : Element} {tag : Str} {attrib : Dict Str Str}
    {rest : List Element} :
    element.outline name = mk tag attrib none (child :: rest) ↔
      name element.tag = tag ∧ element.attrib = attrib ∧
        element.children.map (outline name) = child :: rest := by
  obtain ⟨tag', attrib', text', children⟩ := element
  cases children with
  | nil => simp [outline, Element.children]
  | cons first others =>
    simp [outline, outlineAll_eq_map, Element.tag, Element.attrib, Element.children]

mutual

/-- The elements of an outline are the outlines of the elements. -/
theorem iter_outline : (element : Element) →
    (element.outline name).iter = element.iter.map (outline name)
  | mk tag attrib text [] => rfl
  | mk tag attrib text (child :: rest) => by
    rw [iter_eq, iter_eq, children_outline, List.map_cons, ← outlineAll_eq_map]
    exact congrArg _ (iterAll_outlineAll (child :: rest))

/-- The elements of outlines are the outlines of the elements. -/
theorem iterAll_outlineAll : (elements : List Element) →
    iterAll (outlineAll name elements) = (iterAll elements).map (outline name)
  | [] => rfl
  | element :: rest => by
    rw [outlineAll, iterAll, iterAll, List.map_append, iter_outline element,
      iterAll_outlineAll rest]

end

end Outline

end Element

end Xml
