import RealityCore.Workflow.GrammarComplete

/-!
# Canonical workflow texts

A tree is written with two spaces for each level, list items behind `- `, the further entries of
an item two columns in and the block below its first key four columns in. The domain of the
rendering is stated on the tree.
-/

namespace RealityCore.Workflow

open Python (Str Dict isLineBreak rstrip splitLines unlines)

/-! ## The accepted format -/

/-- A text on one line that passes the line checks. -/
structure LineChecks (text : Str) : Prop where
  unbroken : ∀ c ∈ text, isLineBreak c = false ∧ c ≠ '\t'
  trimmed : rstrip text = text
  content : ContentChecks text

/-- A plain string: `_scalar` returns it unchanged and it is no block indicator. -/
structure PlainString (value : Str) : Prop where
  unchanged : scalar value = .ok (.scalar (.str value))
  indicator : value ∉ blockIndicators
  checks : LineChecks value

/-- A block string: its lines are not empty and have no leading space. -/
def BlockString (value : Str) : Prop :=
  ∃ lines, lines ≠ [] ∧ value = blockString lines ∧
    ∀ line ∈ lines, line ≠ [] ∧ line.head? ≠ some ' ' ∧ LineChecks line

/-- The scalars of the format. -/
def Scalar.WellFormed : Scalar → Prop
  | .str value => PlainString value ∨ BlockString value
  | _ => True

/-- The first entry of a list item: its key is no dash, its value no block string and, where
further entries follow, no empty dictionary. -/
def FirstEntry : Dict Str Value → Prop
  | [] => False
  | (key, value) :: others => key ≠ ['-'] ∧ (∀ s, value = .scalar s → ¬s.IsText) ∧
      (value = .map [] → others = [])

mutual

/-- The values of the format. -/
def Value.WellFormed : Value → Prop
  | .map entries => EntriesWellFormed entries
  | .list items => items ≠ [] ∧ ItemsWellFormed items
  | .scalar value => value.WellFormed

/-- Entries with distinct keys that match `KEY_RE`. -/
def EntriesWellFormed : List (Str × Value) → Prop
  | [] => True
  | (key, value) :: rest => IsKey key ∧ key ∉ Dict.keys rest ∧ value.WellFormed ∧
      EntriesWellFormed rest

/-- Items that are dictionaries with an admissible first entry. -/
def ItemsWellFormed : List Value → Prop
  | [] => True
  | .map entries :: rest => FirstEntry entries ∧ EntriesWellFormed entries ∧ ItemsWellFormed rest
  | _ :: _ => False

end

/-- A document: a dictionary that is not empty. -/
def Document : Value → Prop
  | .map entries => entries ≠ [] ∧ EntriesWellFormed entries
  | _ => False

/-! ## Rendering -/

/-- The text of a scalar behind its key. -/
def Scalar.write : Scalar → Str
  | .bool value => (toString value).toList
  | .int value => Nat.toDigits 10 value
  | .str value => if (Scalar.str value).IsText then "|".toList else value

/-- The text of a value on the line of its key. -/
def Value.raw : Value → Str
  | .scalar value => value.write
  | _ => []

/-- `key:` or `key: value` -/
def keyLine (key : Str) (value : Value) : Str :=
  key ++ ':' :: if value.raw = [] then [] else ' ' :: value.raw

mutual

/-- The lines below the key of a value. -/
def renderValue (indent : ℕ) : Value → List Line
  | .map entries => renderEntries indent entries
  | .list items => renderItems indent items
  | .scalar (.str value) =>
    if (Scalar.str value).IsText then (splitLines value).map fun line => ⟨indent, line⟩ else []
  | .scalar _ => []

/-- The lines of the entries of a dictionary. -/
def renderEntries (indent : ℕ) : List (Str × Value) → List Line
  | [] => []
  | (key, value) :: rest =>
    ⟨indent, keyLine key value⟩ :: (renderValue (indent + 2) value ++ renderEntries indent rest)

/-- The lines of the items of a list; an item that is no dictionary has none. -/
def renderItems (indent : ℕ) : List Value → List Line
  | [] => []
  | .map ((key, value) :: others) :: rest =>
    ⟨indent, '-' :: ' ' :: keyLine key value⟩ :: (renderValue (indent + 4) value ++
      (renderEntries (indent + 2) others ++ renderItems indent rest))
  | _ :: rest => renderItems indent rest

end

/-- The canonical text of a document. -/
def renderText (document : Value) : Str := unlines ((renderValue 0 document).map Line.text)

end RealityCore.Workflow
