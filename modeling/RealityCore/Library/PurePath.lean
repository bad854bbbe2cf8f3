import RealityCore.Library.CodePoint

/-!
# Pure paths

An absolute POSIX path is the list of its components. Joining a text drops its empty components and
single dots, and an absolute text replaces the path.
-/

namespace Python

/-- An absolute path: its components below the root. -/
abbrev PurePath := List Text

/-- `/` -/
def slash : CodePoint := CodePoint.ofChar '/'

namespace PurePath

/-- The components of a text. -/
def components (text : Text) : List Text :=
  (text.splitOn slash).filter fun part => part ≠ [] ∧ part ≠ points "."

/-- `path / text` -/
def join (path : PurePath) (text : Text) : PurePath :=
  if text.head? = some slash then components text else path ++ components text

/-- `path.parent` -/
def parent (path : PurePath) : PurePath := path.dropLast

/-- `path.name` -/
def name (path : PurePath) : Text := path.getLast?.getD []

/-- `str(path)` -/
def toText (path : PurePath) : Text := slash :: List.intercalate [slash] path

/-- A text that is one component. -/
def IsComponent (text : Text) : Prop := text ≠ [] ∧ text ≠ points "." ∧ slash ∉ text

instance : DecidablePred IsComponent := fun _ => inferInstanceAs (Decidable (_ ∧ _))

/-- A component is its own list of components. -/
theorem components_eq {text : Text} (h : IsComponent text) : components text = [text] := by
  obtain ⟨hne, hdot, hslash⟩ := h
  rw [components, List.splitOn_eq_singleton hslash, List.filter_cons_of_pos]
  · rfl
  · simpa using ⟨hne, hdot⟩

/-- Joining a component appends it. -/
theorem join_eq {text : Text} (h : IsComponent text) (path : PurePath) :
    path.join text = path ++ [text] := by
  have hhead : text.head? ≠ some slash := fun heq => h.2.2 (List.mem_of_head? heq)
  rw [join, if_neg hhead, components_eq h]

/-- The parent of a path with a last component. -/
theorem parent_append (path : PurePath) (last : Text) : parent (path ++ [last]) = path :=
  List.dropLast_concat

/-- The name of a path is its last component. -/
theorem name_append (path : PurePath) (last : Text) : name (path ++ [last]) = last := by
  rw [name, List.getLast?_concat, Option.getD_some]

end PurePath

end Python
