import RealityCore.Workflow.Lines

/-!
# The workflow parser

Three functions share one cursor, which is the list of the lines still to be read. Structure
is inferred from the indentation of the next line. The fuel bounds the depth of the calls; each
line costs two units, so `parse` supplies enough for its lines.
-/

namespace RealityCore.Workflow

open Python (Str Dict join)

/-- A run of the parser. -/
abbrev Result := Except Failure

/-- `content.startswith("- ")` -/
def Line.isItem (line : Line) : Bool := "- ".toList.isPrefixOf line.content

/-- `raise WorkflowError(f"{problem} {key}")` -/
def rejectKey {α : Type} (problem : String) (key : Str) : Result α :=
  .error (.workflowError (problem.toList ++ ' ' :: key))

/-- The loop over the lines of a block scalar. -/
def blockLines (indent : ℕ) : List Line → Result (List Str × List Line)
  | [] => .ok ([], [])
  | line :: rest =>
    if indent < line.indent then
      if line.indent ≠ indent + 2 then reject "block scalar indentation is not canonical"
      else do
        let (contents, rest) ← blockLines indent rest
        .ok (line.content :: contents, rest)
    else .ok ([], line :: rest)

/-- `"\n".join(block_lines) + "\n"` -/
def blockString (contents : List Str) : Str := join ['\n'] contents ++ ['\n']

/-- The value of a key whose line holds no block indicator: a scalar, or else the block on
deeper lines when there are any. -/
def keyValue (block : List Line → ℕ → Result (Value × List Line)) (value : Str) (lines : List Line)
    (indent : ℕ) : Result (Value × List Line) :=
  if value ≠ [] then do
    let scalarValue ← scalar value
    .ok (scalarValue, lines)
  else match lines with
    | [] => .ok (.map [], [])
    | line :: rest =>
      if indent < line.indent then block (line :: rest) line.indent
      else .ok (.map [], line :: rest)

/-- The value of a key: the lines of a block scalar, or the value of another line. -/
def entryValue (block : List Line → ℕ → Result (Value × List Line)) (value : Str)
    (lines : List Line) (indent : ℕ) : Result (Value × List Line) :=
  if value ∈ blockIndicators then
    if value.head? = some '>' then reject "folded YAML scalars are not accepted"
    else do
      let (contents, rest) ← blockLines indent lines
      .ok (.scalar (.str (blockString contents)), rest)
  else keyValue block value lines indent

/-- The value of a list item without a content: the block on deeper lines. -/
def itemBlock (block : List Line → ℕ → Result (Value × List Line)) (lines : List Line)
    (indent : ℕ) : Result (Value × List Line) :=
  match lines with
  | [] => reject "empty list item"
  | line :: rest =>
    if line.indent ≤ indent then reject "empty list item" else block (line :: rest) line.indent

/-- The further entries of a list item, on lines deeper than the item. -/
def extraEntries (map : List Line → ℕ → Result (Dict Str Value × List Line)) (lines : List Line)
    (indent : ℕ) : Result (Dict Str Value × List Line) :=
  match lines with
  | [] => .ok ([], [])
  | line :: rest =>
    if indent < line.indent then map (line :: rest) line.indent else .ok ([], line :: rest)

/-- The loop that adds the further entries to a list item. -/
def addExtra (item : Dict Str Value) : Dict Str Value → Result (Dict Str Value)
  | [] => .ok item
  | (key, value) :: extra =>
    if key ∈ item.keys then rejectKey "duplicate list item key" key
    else addExtra (item.set key value) extra

mutual

/-- `_block(index, indent)` -/
def block : ℕ → List Line → ℕ → Result (Value × List Line)
  | 0, _, _ => .error .outOfFuel
  | _ + 1, [], _ => reject "unexpected indentation"
  | fuel + 1, line :: rest, indent =>
    if line.indent ≠ indent then reject "unexpected indentation"
    else if line.isItem then do
      let (items, rest) ← list fuel (line :: rest) indent []
      .ok (.list items, rest)
    else do
      let (entries, rest) ← map fuel (line :: rest) indent []
      .ok (.map entries, rest)

/-- `_map(index, indent)`, with the entries read so far. -/
def map : ℕ → List Line → ℕ → Dict Str Value → Result (Dict Str Value × List Line)
  | 0, _, _, _ => .error .outOfFuel
  | _ + 1, [], _, result => .ok (result, [])
  | fuel + 1, line :: rest, indent, result =>
    if line.indent ≠ indent ∨ line.isItem then .ok (result, line :: rest)
    else do
      let (key, value) ← splitMapping line.content
      if key ∈ result.keys then rejectKey "duplicate key" key
      else do
        let (child, rest) ← entryValue (block fuel) value rest indent
        map fuel rest indent (result.set key child)

/-- `_list(index, indent)`, with the items read so far. -/
def list : ℕ → List Line → ℕ → List Value → Result (List Value × List Line)
  | 0, _, _, _ => .error .outOfFuel
  | _ + 1, [], _, result => .ok (result, [])
  | fuel + 1, line :: rest, indent, result =>
    if line.indent ≠ indent ∨ ¬line.isItem then .ok (result, line :: rest)
    else if line.content.drop 2 = [] then do
      let (item, rest) ← itemBlock (block fuel) rest indent
      list fuel rest indent (result ++ [item])
    else do
      let (key, value) ← splitMapping (line.content.drop 2)
      if key = [] ∨ key = ['-'] then reject "invalid list item mapping"
      else if value ∈ blockIndicators then
        reject "list item block scalar must be a nested mapping"
      else do
        let (child, rest) ← keyValue (block fuel) value rest indent
        let (extra, rest) ← extraEntries (map fuel · · []) rest indent
        let item ← addExtra [(key, child)] extra
        list fuel rest indent (result ++ [.map item])

end

/-- `_Parser.parse()` -/
def Parser.parse (p : Parser) : Result Value := do
  let (value, rest) ← block (2 * p.lines.length + 2) p.lines (p.lines.head p.nonempty).indent
  if rest ≠ [] then reject "workflow contains an unparsed line"
  else .ok value

end RealityCore.Workflow
