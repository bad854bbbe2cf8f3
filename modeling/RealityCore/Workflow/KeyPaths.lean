import RealityCore.Workflow.KeyLines

/-!
# The keys of a parsed value

The keys of a value in document order, each with the way to the map that holds it. The lines of a
text that hold keys are those outside of its block scalars.
-/

namespace RealityCore.Workflow

open Python (Str Dict)

/-- A step from a value to one of its parts. -/
inductive PathStep where
  | key (name : Str)
  | item (index : ℕ)
  deriving DecidableEq

/-- A key of a value: the way to its map, and its name there. -/
structure KeyPath where
  map : List PathStep
  key : Str
  deriving DecidableEq

/-- The key seen from a value that holds the present one. -/
def KeyPath.under (step : PathStep) (path : KeyPath) : KeyPath := ⟨step :: path.map, path.key⟩

/-- The first step on the way to a key and into its value. -/
def KeyPath.first : KeyPath → PathStep
  | ⟨[], key⟩ => .key key
  | ⟨step :: _, _⟩ => step

mutual

/-- The keys of a value in document order. -/
def keyPaths : Value → List KeyPath
  | .map entries => entryPaths entries
  | .list items => itemPaths 0 items
  | .scalar _ => []

/-- The keys of the entries of a dictionary, each followed by those in its value. -/
def entryPaths : List (Str × Value) → List KeyPath
  | [] => []
  | (key, value) :: rest =>
    ⟨[], key⟩ :: ((keyPaths value).map (.under (.key key)) ++ entryPaths rest)

/-- The keys of the items of a list, which are counted from the given index. -/
def itemPaths (index : ℕ) : List Value → List KeyPath
  | [] => []
  | value :: rest => (keyPaths value).map (.under (.item index)) ++ itemPaths (index + 1) rest

end

/-- The lines that hold a key, given the block scalar that is open before them. -/
def keyLines (opened : Option ℕ) (lines : List Line) : List Line :=
  ((marked opened lines).filter fun mark => !mark.1).map Prod.snd

/-- The line holds no value behind its key. -/
def Line.bare (line : Line) : Bool :=
  match splitMapping line.keyText with
  | .ok (_, raw) => raw == []
  | .error _ => false

/-- A key of a value and the line that holds it. -/
structure LocatedKey where
  path : KeyPath
  line : Line

/-- The located key seen from a value that holds the present one. -/
def LocatedKey.under (step : PathStep) (key : LocatedKey) : LocatedKey :=
  ⟨key.path.under step, key.line⟩

/-! ## The lines that hold keys -/

/-- A line that is not deeper ends the block scalar. -/
theorem keyLines_shallow {indent : ℕ} {lines : List Line} (h : Shallow indent lines) :
    keyLines (some indent) lines = keyLines none lines := by
  rw [keyLines, marked_shallow h, keyLines]

/-- The lines of a block scalar hold no keys. -/
theorem keyLines_deeper {indent : ℕ} {body following : List Line}
    (h : ∀ line ∈ body, indent < line.indent) :
    keyLines (some indent) (body ++ following) = keyLines (some indent) following := by
  rw [keyLines, marked_deeper h, List.filter_append, List.map_append]
  simp [keyLines]

/-- A key line outside of block scalars holds a key. -/
theorem keyLines_key {line : Line} {key raw : Str}
    (h : splitMapping line.keyText = .ok (key, raw)) (rest : List Line) :
    keyLines none (line :: rest) = line :: keyLines (openedBy raw line.indent) rest := by
  rw [keyLines, marked_key h]
  rfl

/-- The first line outside of block scalars is a key line. -/
theorem head?_keyLines (lines : List Line) : (keyLines none lines).head? = lines.head? := by
  cases lines with
  | nil => rfl
  | cons line lines => rfl

/-- A key line is a line. -/
theorem mem_of_mem_keyLines {opened : Option ℕ} {lines : List Line} {line : Line}
    (h : line ∈ keyLines opened lines) : line ∈ lines := by
  obtain ⟨mark, hmark, rfl⟩ := List.mem_map.mp h
  rw [← map_snd_marked opened lines]
  exact List.mem_map_of_mem (List.mem_filter.mp hmark).1

/-- The text behind the key tells whether the line is bare. -/
theorem Line.bare_eq {line : Line} {key raw : Str}
    (h : splitMapping line.keyText = .ok (key, raw)) : line.bare = (raw == []) := by
  rw [Line.bare, h]

/-! ## The ways to the keys -/

/-- The way to a key in the entries of a dictionary starts with one of their keys. -/
theorem first_of_mem_entryPaths {entries : Dict Str Value} {path : KeyPath}
    (h : path ∈ entryPaths entries) : ∃ key ∈ entries.keys, path.first = .key key := by
  induction entries with
  | nil => exact absurd h List.not_mem_nil
  | cons entry entries ih =>
    obtain ⟨key, value⟩ := entry
    rw [entryPaths, List.mem_cons, List.mem_append] at h
    rcases h with rfl | hvalue | hrest
    · exact ⟨key, List.mem_cons_self, rfl⟩
    · obtain ⟨inner, -, rfl⟩ := List.mem_map.mp hvalue
      exact ⟨key, List.mem_cons_self, rfl⟩
    · obtain ⟨other, hother, hfirst⟩ := ih hrest
      exact ⟨other, List.mem_cons_of_mem _ hother, hfirst⟩

/-- The way to a key in the entries of a dictionary does not start with another key. -/
theorem first_ne_of_notMem {entries : Dict Str Value} {path : KeyPath} {key : Str}
    (hkey : key ∉ entries.keys) (h : path ∈ entryPaths entries) : path.first ≠ .key key := by
  obtain ⟨name, hname, hfirst⟩ := first_of_mem_entryPaths h
  rw [hfirst]
  exact fun heq => hkey (PathStep.key.inj heq ▸ hname)

/-- The way to a key in the items of a list starts with the index of its item. -/
theorem first_of_mem_itemPaths {items : List Value} {index : ℕ} {path : KeyPath}
    (h : path ∈ itemPaths index items) :
    path.map ≠ [] ∧ ∃ position, index ≤ position ∧ path.first = .item position := by
  induction items generalizing index with
  | nil => exact absurd h List.not_mem_nil
  | cons value items ih =>
    rw [itemPaths, List.mem_append] at h
    rcases h with hvalue | hrest
    · obtain ⟨inner, -, rfl⟩ := List.mem_map.mp hvalue
      exact ⟨List.cons_ne_nil _ _, index, le_rfl, rfl⟩
    · obtain ⟨hmap, position, hposition, hfirst⟩ := ih hrest
      exact ⟨hmap, position, by omega, hfirst⟩

end RealityCore.Workflow
