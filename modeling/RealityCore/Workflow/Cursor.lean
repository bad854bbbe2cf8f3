import RealityCore.Workflow.Fuel
import RealityCore.Workflow.Walk

/-!
# The cursor of the parser

The parser reads its stored lines through an index, behind a test that the index is below their
number, and it unpacks what a split gives. Here each access and each unpacking is checked, so that
one without its test would raise. The functions do what the ones over the lines left to be read
do.
-/

namespace RealityCore.Workflow

open Outcome (bind_eq_ok_iff)
open Python (Str Dict nonBlankLines strip splitOnce)
open Regex (fullMatch)

/-- What a run over the stored lines raises. -/
inductive Raised where
  | failure (failure : Failure)
  | indexError
  | valueError
  deriving DecidableEq

/-- A run over the stored lines. -/
abbrev Raising := Except Raised

/-- A run that uses no index. -/
def raising {α : Type} (r : Result α) : Raising α := r.mapError Raised.failure

/-- `self.lines[index]` -/
def lineAt (lines : List Line) (index : ℕ) : Raising Line :=
  match lines[index]? with
  | some line => .ok line
  | none => .error .indexError

/-- `index < len(self.lines) and …`, with a test of the line at the index. -/
def holdsAt (lines : List Line) (index : ℕ) (test : Line → Bool) : Raising Bool :=
  if index < lines.length then do
    let line ← lineAt lines index
    .ok (test line)
  else .ok false

/-- `_split_mapping(line)` -/
def splitMappingAt (line : Str) : Raising (Str × Str) :=
  if ':' ∉ line then raising (reject "mapping line has no colon")
  else match splitOnce line ':' with
    | [key, value] =>
      if key = [] ∨ strip key ≠ key ∨ !fullMatch KEY_RE key then
        raising (reject "mapping key is not canonical")
      else .ok (key, dropSpace value)
    | _ => .error .valueError

/-- The loop over the lines of a block scalar, with the contents read so far; each round but the
last advances the index. -/
def blockLinesAt (lines : List Line) (indent : ℕ) : ℕ → ℕ → List Str → Raising (List Str × ℕ)
  | 0, _, _ => .error (.failure .outOfFuel)
  | rounds + 1, index, contents => do
    let deeper ← holdsAt lines index (indent < ·.indent)
    if deeper then do
      let child ← lineAt lines index
      if child.indent ≠ indent + 2 then
        raising (reject "block scalar indentation is not canonical")
      else blockLinesAt lines indent rounds (index + 1) (contents ++ [child.content])
    else .ok (contents, index)

section Helpers

variable (lines : List Line) (blockAt : ℕ → ℕ → Raising (Value × ℕ))

/-- The value of a key whose line holds no block indicator, at the index behind that line. -/
def keyValueAt (value : Str) (index indent : ℕ) : Raising (Value × ℕ) :=
  if value ≠ [] then do
    let scalarValue ← raising (scalar value)
    .ok (scalarValue, index)
  else do
    let deeper ← holdsAt lines index (indent < ·.indent)
    if deeper then do
      let child ← lineAt lines index
      blockAt index child.indent
    else .ok (.map [], index)

/-- The value of a key, at the index behind its line. -/
def entryValueAt (value : Str) (index indent : ℕ) : Raising (Value × ℕ) :=
  if value ∈ blockIndicators then
    if value.head? = some '>' then raising (reject "folded YAML scalars are not accepted")
    else do
      let (contents, index) ← blockLinesAt lines indent (lines.length + 1) index []
      .ok (.scalar (.str (blockString contents)), index)
  else keyValueAt lines blockAt value index indent

/-- The value of a list item without a content, at the index behind its line. -/
def itemBlockAt (index indent : ℕ) : Raising (Value × ℕ) :=
  if lines.length ≤ index then raising (reject "empty list item")
  else do
    let line ← lineAt lines index
    if line.indent ≤ indent then raising (reject "empty list item")
    else do
      let line ← lineAt lines index
      blockAt index line.indent

/-- The further entries of a list item. -/
def extraEntriesAt (mapAt : ℕ → ℕ → Raising (Dict Str Value × ℕ)) (index indent : ℕ) :
    Raising (Dict Str Value × ℕ) := do
  let deeper ← holdsAt lines index (indent < ·.indent)
  if deeper then do
    let line ← lineAt lines index
    mapAt index line.indent
  else .ok ([], index)

end Helpers

mutual

/-- `_block(index, indent)` -/
def blockAt (lines : List Line) : ℕ → ℕ → ℕ → Raising (Value × ℕ)
  | 0, _, _ => .error (.failure .outOfFuel)
  | fuel + 1, index, indent =>
    if lines.length ≤ index then raising (reject "unexpected indentation")
    else do
      let line ← lineAt lines index
      if line.indent ≠ indent then raising (reject "unexpected indentation")
      else do
        let line ← lineAt lines index
        if line.isItem then do
          let (items, index) ← listAt lines fuel index indent []
          .ok (.list items, index)
        else do
          let (entries, index) ← mapAt lines fuel index indent []
          .ok (.map entries, index)

/-- `_map(index, indent)`, with the entries read so far. -/
def mapAt (lines : List Line) : ℕ → ℕ → ℕ → Dict Str Value → Raising (Dict Str Value × ℕ)
  | 0, _, _, _ => .error (.failure .outOfFuel)
  | fuel + 1, index, indent, result => do
    let inside ← holdsAt lines index (·.indent = indent)
    if !inside then .ok (result, index)
    else do
      let line ← lineAt lines index
      if line.isItem then .ok (result, index)
      else do
        let (key, value) ← splitMappingAt line.content
        if key ∈ result.keys then raising (rejectKey "duplicate key" key)
        else do
          let (child, index) ← entryValueAt lines (blockAt lines fuel) value (index + 1) indent
          mapAt lines fuel index indent (result.set key child)

/-- `_list(index, indent)`, with the items read so far. -/
def listAt (lines : List Line) : ℕ → ℕ → ℕ → List Value → Raising (List Value × ℕ)
  | 0, _, _, _ => .error (.failure .outOfFuel)
  | fuel + 1, index, indent, result => do
    let inside ← holdsAt lines index (·.indent = indent)
    if !inside then .ok (result, index)
    else do
      let line ← lineAt lines index
      if !line.isItem then .ok (result, index)
      else if line.content.drop 2 = [] then do
        let (item, index) ← itemBlockAt lines (blockAt lines fuel) (index + 1) indent
        listAt lines fuel index indent (result ++ [item])
      else do
        let (key, value) ← splitMappingAt (line.content.drop 2)
        if key = [] ∨ key = ['-'] then raising (reject "invalid list item mapping")
        else if value ∈ blockIndicators then
          raising (reject "list item block scalar must be a nested mapping")
        else do
          let (child, index) ← keyValueAt lines (blockAt lines fuel) value (index + 1) indent
          let (extra, index) ← extraEntriesAt lines (mapAt lines fuel · · []) index indent
          let item ← raising (addExtra [(key, child)] extra)
          listAt lines fuel index indent (result ++ [.map item])

end

/-- `_Parser.parse()` -/
def Parser.parseAt (p : Parser) : Raising Value := do
  let first ← lineAt p.lines 0
  let (value, index) ← blockAt p.lines (2 * p.lines.length + 2) 0 first.indent
  if index ≠ p.lines.length then raising (reject "workflow contains an unparsed line")
  else .ok value

/-- `_Parser(text).parse()` -/
def parseText (text : Str) : Raising Value := do
  let p ← raising (Parser.init text)
  p.parseAt

/-! ## The index and the lines left -/

/-- The outcome of a run with an index in place of the lines that are left. -/
def located {α : Type} (lines : List Line) (r : Result (α × List Line)) : Raising (α × ℕ) :=
  raising (r.map fun result => (result.1, lines.length - result.2.length))

section Located

variable {α β : Type} {lines : List Line} {index : ℕ}

/-- The line at the index is the first one left. -/
theorem lineAt_of_drop {line : Line} {rest : List Line} (h : lines.drop index = line :: rest) :
    lineAt lines index = .ok line := by
  rw [lineAt, ← List.head?_drop, h]
  rfl

/-- The lines left behind the first one are those at the next index. -/
theorem drop_succ_of_drop {line : Line} {rest : List Line} (h : lines.drop index = line :: rest) :
    lines.drop (index + 1) = rest := by
  rw [← List.tail_drop, h, List.tail_cons]

/-- An index with a line is below the number of lines. -/
theorem lt_length_of_drop {line : Line} {rest : List Line} (h : lines.drop index = line :: rest) :
    index < lines.length := by
  by_contra hle
  rw [List.drop_eq_nil_of_le (Nat.le_of_not_lt hle)] at h
  exact absurd h (List.cons_ne_nil line rest).symm

/-- No test is made when no lines are left. -/
theorem holdsAt_of_drop_nil (h : lines.drop index = []) (test : Line → Bool) :
    holdsAt lines index test = .ok false := by
  rw [holdsAt, if_neg (Nat.not_lt_of_le (List.drop_eq_nil_iff.mp h))]

/-- The first line left is tested. -/
theorem holdsAt_of_drop {line : Line} {rest : List Line} (h : lines.drop index = line :: rest)
    (test : Line → Bool) : holdsAt lines index test = .ok (test line) := by
  rw [holdsAt, if_pos (lt_length_of_drop h), lineAt_of_drop h]
  rfl

/-- A run that leaves the lines at an index. -/
theorem located_ok (h : index ≤ lines.length) (a : α) {rest : List Line}
    (hrest : lines.drop index = rest) : located lines (.ok (a, rest)) = .ok (a, index) := by
  have hindex : lines.length - rest.length = index := by
    rw [← hrest, List.length_drop, Nat.sub_sub_self h]
  change Except.ok (a, lines.length - rest.length) = _
  rw [hindex]

/-- A run that goes on after a step that uses no index. -/
theorem raising_bind {r : Result α} {f : α → Result (β × List Line)} {g : α → Raising (β × ℕ)}
    (h : ∀ a, g a = located lines (f a)) : raising r >>= g = located lines (r >>= f) := by
  cases r with
  | error e => rfl
  | ok a => exact h a

/-- A run that goes on where another one stops. -/
theorem located_bind {enough : Prop} {r : Result (α × List Line)}
    {f : α × List Line → Result (β × List Line)} {g : α × ℕ → Raising (β × ℕ)}
    (hr : Orderly enough (lines.drop index) r)
    (h : ∀ a next, next ≤ lines.length → g (a, next) = located lines (f (a, lines.drop next))) :
    located lines r >>= g = located lines (r >>= f) := by
  cases r with
  | error e => rfl
  | ok result =>
    obtain ⟨a, rest⟩ := result
    have hsuffix : rest <:+ lines := (hr.suffix a rest rfl).trans (List.drop_suffix index lines)
    have hdrop := List.suffix_iff_eq_drop.mp hsuffix
    have hgo := h a (lines.length - rest.length) (Nat.sub_le _ _)
    rw [← hdrop] at hgo
    exact hgo

end Located

/-- Unpacking the split never fails: a line with a colon is split into two. -/
theorem splitMappingAt_eq (line : Str) : splitMappingAt line = raising (splitMapping line) := by
  rw [splitMappingAt, splitMapping]
  by_cases hcolon : ':' ∉ line
  · rw [if_pos hcolon, if_pos hcolon]
  rw [if_neg hcolon, if_neg hcolon]
  obtain ⟨front, tail, rfl, hfront⟩ := List.eq_append_cons_of_mem (not_not.mp hcolon)
  rw [Python.splitOnce_append hfront, Python.partition_append hfront]
  dsimp only
  by_cases hkey : front = [] ∨ strip front ≠ front ∨ (!fullMatch KEY_RE front) = true
  · rw [if_pos hkey, if_pos hkey]
  · rw [if_neg hkey, if_neg hkey]
    rfl

/-- The loop over a block scalar adds the contents of its lines; there are rounds for all lines. -/
theorem blockLinesAt_eq {lines : List Line} {indent rounds index : ℕ} (h : index ≤ lines.length)
    (hrounds : lines.length < index + rounds) (contents : List Str) :
    blockLinesAt lines indent rounds index contents =
      located lines ((blockLines indent (lines.drop index)).map fun result =>
        (contents ++ result.1, result.2)) := by
  induction rounds generalizing index contents with
  | zero => exact absurd hrounds (Nat.not_lt_of_le h)
  | succ rounds ih =>
    rw [blockLinesAt]
    cases hdrop : lines.drop index with
    | nil =>
      rw [holdsAt_of_drop_nil hdrop]
      change Except.ok (contents, index) = located lines (.ok (contents ++ [], []))
      rw [located_ok h _ hdrop, List.append_nil]
    | cons line rest =>
      rw [holdsAt_of_drop hdrop, blockLines]
      by_cases hdeeper : indent < line.indent
      · rw [if_pos hdeeper, decide_eq_true hdeeper]
        change (lineAt lines index >>= _) = _
        rw [lineAt_of_drop hdrop]
        change (if line.indent ≠ indent + 2 then _ else _) = _
        by_cases hindent : line.indent ≠ indent + 2
        · rw [if_pos hindent, if_pos hindent]
          rfl
        rw [if_neg hindent, if_neg hindent, ih (lt_length_of_drop hdrop) (by omega),
          drop_succ_of_drop hdrop]
        cases blockLines indent rest with
        | error e => rfl
        | ok result =>
          change located lines (.ok (contents ++ [line.content] ++ result.1, result.2)) =
            located lines (.ok (contents ++ line.content :: result.1, result.2))
          rw [List.append_assoc, List.singleton_append]
      · rw [if_neg hdeeper, decide_eq_false hdeeper]
        change Except.ok (contents, index) = located lines (.ok (contents ++ [], line :: rest))
        rw [located_ok h _ hdrop, List.append_nil]

/-- A function of the index does what a function of the lines left does. -/
def Follows {α : Type} (lines : List Line) (readAt : ℕ → ℕ → Raising (α × ℕ))
    (read : List Line → ℕ → Result (α × List Line)) : Prop :=
  ∀ index indent, index ≤ lines.length →
    readAt index indent = located lines (read (lines.drop index) indent)

section Follows

variable {lines : List Line} {readAt : ℕ → ℕ → Raising (Value × ℕ)}
  {readBlock : List Line → ℕ → Result (Value × List Line)}

/-- The value of a key that opens no block scalar. -/
theorem keyValueAt_eq (hread : Follows lines readAt readBlock) (value : Str) :
    Follows lines (keyValueAt lines readAt value) (keyValue readBlock value) := by
  intro index indent h
  unfold keyValueAt keyValue
  by_cases hvalue : value ≠ []
  · rw [if_pos hvalue, if_pos hvalue]
    exact raising_bind fun scalarValue => (located_ok h scalarValue rfl).symm
  rw [if_neg hvalue, if_neg hvalue]
  cases hdrop : lines.drop index with
  | nil =>
    rw [holdsAt_of_drop_nil hdrop]
    exact (located_ok h _ hdrop).symm
  | cons line rest =>
    rw [holdsAt_of_drop hdrop]
    dsimp only
    by_cases hdeeper : indent < line.indent
    · rw [if_pos hdeeper, decide_eq_true hdeeper, ← hdrop, ← hread index line.indent h]
      change (lineAt lines index >>= _) = _
      rw [lineAt_of_drop hdrop]
      rfl
    · rw [if_neg hdeeper, decide_eq_false hdeeper]
      exact (located_ok h _ hdrop).symm

/-- The value of a key. -/
theorem entryValueAt_eq (hread : Follows lines readAt readBlock) (value : Str) :
    Follows lines (entryValueAt lines readAt value) (entryValue readBlock value) := by
  intro index indent h
  rw [entryValueAt, entryValue]
  by_cases hraw : value ∈ blockIndicators
  · rw [if_pos hraw, if_pos hraw]
    by_cases hfolded : value.head? = some '>'
    · rw [if_pos hfolded, if_pos hfolded]
      rfl
    rw [if_neg hfolded, if_neg hfolded, blockLinesAt_eq h (by omega)]
    cases blockLines indent (lines.drop index) with
    | error e => rfl
    | ok result => rfl
  · rw [if_neg hraw, if_neg hraw]
    exact keyValueAt_eq hread value index indent h

/-- The block of a list item. -/
theorem itemBlockAt_eq (hread : Follows lines readAt readBlock) :
    Follows lines (itemBlockAt lines readAt) (itemBlock readBlock) := by
  intro index indent h
  unfold itemBlockAt itemBlock
  cases hdrop : lines.drop index with
  | nil =>
    rw [if_pos (List.drop_eq_nil_iff.mp hdrop)]
    rfl
  | cons line rest =>
    rw [if_neg (Nat.not_le_of_lt (lt_length_of_drop hdrop)), lineAt_of_drop hdrop]
    change (if line.indent ≤ indent then _ else _) = _
    dsimp only
    by_cases hindent : line.indent ≤ indent
    · rw [if_pos hindent, if_pos hindent]
      rfl
    · rw [if_neg hindent, if_neg hindent, ← hdrop]
      exact hread index line.indent h

/-- The further entries of a list item. -/
theorem extraEntriesAt_eq {readMapAt : ℕ → ℕ → Raising (Dict Str Value × ℕ)}
    {readMap : List Line → ℕ → Result (Dict Str Value × List Line)}
    (hread : Follows lines readMapAt readMap) :
    Follows lines (extraEntriesAt lines readMapAt) (extraEntries readMap) := by
  intro index indent h
  unfold extraEntriesAt extraEntries
  cases hdrop : lines.drop index with
  | nil =>
    rw [holdsAt_of_drop_nil hdrop]
    exact (located_ok h _ hdrop).symm
  | cons line rest =>
    rw [holdsAt_of_drop hdrop]
    dsimp only
    by_cases hdeeper : indent < line.indent
    · rw [if_pos hdeeper, decide_eq_true hdeeper, ← hdrop, ← hread index line.indent h]
      change (lineAt lines index >>= _) = _
      rw [lineAt_of_drop hdrop]
      rfl
    · rw [if_neg hdeeper, decide_eq_false hdeeper]
      exact (located_ok h _ hdrop).symm

end Follows

/-! ## The three functions -/

/-- A block is read as the lines left say, when its items and entries are. -/
theorem blockAt_succ {lines : List Line} {fuel : ℕ}
    (hmap : ∀ result, Follows lines (mapAt lines fuel · · result) (map fuel · · result))
    (hlist : ∀ result, Follows lines (listAt lines fuel · · result) (list fuel · · result)) :
    Follows lines (blockAt lines (fuel + 1)) (block (fuel + 1)) := by
  intro index indent h
  rw [blockAt]
  cases hdrop : lines.drop index with
  | nil =>
    rw [if_pos (List.drop_eq_nil_iff.mp hdrop), block]
    rfl
  | cons line rest =>
    rw [if_neg (Nat.not_le_of_lt (lt_length_of_drop hdrop)), lineAt_of_drop hdrop, block]
    change (if line.indent ≠ indent then _ else _) = _
    by_cases hindent : line.indent ≠ indent
    · rw [if_pos hindent, if_pos hindent]
      rfl
    rw [if_neg hindent, if_neg hindent, ← hdrop]
    change (if line.isItem then _ else _) = _
    by_cases hitem : line.isItem = true
    · have hitems : listAt lines fuel index indent [] = _ := hlist [] index indent h
      rw [if_pos hitem, if_pos hitem, hitems]
      refine located_bind ((orderly_functions fuel).2.2 _ indent []) fun items next hnext => ?_
      exact (located_ok hnext _ rfl).symm
    · have hentries : mapAt lines fuel index indent [] = _ := hmap [] index indent h
      rw [if_neg hitem, if_neg hitem, hentries]
      refine located_bind ((orderly_functions fuel).2.1 _ indent []) fun entries next hnext => ?_
      exact (located_ok hnext _ rfl).symm

/-- The entries are read as the lines left say, when their values and further entries are. -/
theorem mapAt_succ {lines : List Line} {fuel : ℕ}
    (hblock : Follows lines (blockAt lines fuel) (block fuel))
    (hmap : ∀ result, Follows lines (mapAt lines fuel · · result) (map fuel · · result))
    (result : Dict Str Value) :
    Follows lines (mapAt lines (fuel + 1) · · result) (map (fuel + 1) · · result) := by
  intro index indent h
  dsimp only
  rw [mapAt]
  cases hdrop : lines.drop index with
  | nil =>
    rw [holdsAt_of_drop_nil hdrop, map]
    exact (located_ok h result hdrop).symm
  | cons line rest =>
    rw [holdsAt_of_drop hdrop, map]
    by_cases hindent : line.indent ≠ indent
    · rw [if_pos (.inl hindent), decide_eq_false hindent]
      exact (located_ok h result hdrop).symm
    rw [decide_eq_true (not_not.mp hindent)]
    change (lineAt lines index >>= _) = _
    rw [lineAt_of_drop hdrop]
    change (if line.isItem then _ else _) = _
    by_cases hitem : line.isItem = true
    · rw [if_pos hitem, if_pos (.inr hitem)]
      exact (located_ok h result hdrop).symm
    rw [if_neg hitem, if_neg (not_or.mpr ⟨hindent, hitem⟩), splitMappingAt_eq]
    refine raising_bind fun split => ?_
    obtain ⟨key, value⟩ := split
    dsimp only
    by_cases hkey : key ∈ result.keys
    · rw [if_pos hkey, if_pos hkey]
      rfl
    have hsucc : index + 1 ≤ lines.length := lt_length_of_drop hdrop
    rw [if_neg hkey, if_neg hkey, entryValueAt_eq hblock value (index + 1) indent hsucc,
      ← drop_succ_of_drop hdrop]
    refine located_bind (orderly_entryValue ((orderly_functions fuel).1 _) value indent)
      fun child next hnext => ?_
    exact hmap _ next indent hnext

/-- The items are read as the lines left say, when their values and further entries are. -/
theorem listAt_succ {lines : List Line} {fuel : ℕ}
    (hblock : Follows lines (blockAt lines fuel) (block fuel))
    (hmap : ∀ result, Follows lines (mapAt lines fuel · · result) (map fuel · · result))
    (hlist : ∀ result, Follows lines (listAt lines fuel · · result) (list fuel · · result))
    (result : List Value) :
    Follows lines (listAt lines (fuel + 1) · · result) (list (fuel + 1) · · result) := by
  intro index indent h
  dsimp only
  rw [listAt]
  cases hdrop : lines.drop index with
  | nil =>
    rw [holdsAt_of_drop_nil hdrop, list]
    exact (located_ok h result hdrop).symm
  | cons line rest =>
    rw [holdsAt_of_drop hdrop, list]
    by_cases hindent : line.indent ≠ indent
    · rw [if_pos (.inl hindent), decide_eq_false hindent]
      exact (located_ok h result hdrop).symm
    rw [decide_eq_true (not_not.mp hindent)]
    change (lineAt lines index >>= _) = _
    rw [lineAt_of_drop hdrop]
    change (if (!line.isItem) = true then _ else _) = _
    by_cases hitem : line.isItem = true
    swap
    · rw [if_pos (by simpa using hitem), if_pos (.inr hitem)]
      exact (located_ok h result hdrop).symm
    have hsucc : index + 1 ≤ lines.length := lt_length_of_drop hdrop
    rw [if_neg (by simpa using hitem), if_neg (not_or.mpr ⟨hindent, not_not.mpr hitem⟩),
      ← drop_succ_of_drop hdrop]
    by_cases hempty : line.content.drop 2 = []
    · rw [if_pos hempty, if_pos hempty, itemBlockAt_eq hblock (index + 1) indent hsucc]
      refine located_bind (orderly_itemBlock ((orderly_functions fuel).1 _) indent)
        fun item next hnext => ?_
      exact hlist _ next indent hnext
    rw [if_neg hempty, if_neg hempty, splitMappingAt_eq]
    refine raising_bind fun split => ?_
    obtain ⟨key, value⟩ := split
    dsimp only
    by_cases hkey : key = [] ∨ key = ['-']
    · rw [if_pos hkey, if_pos hkey]
      rfl
    rw [if_neg hkey, if_neg hkey]
    by_cases hraw : value ∈ blockIndicators
    · rw [if_pos hraw, if_pos hraw]
      rfl
    rw [if_neg hraw, if_neg hraw, keyValueAt_eq hblock value (index + 1) indent hsucc]
    refine located_bind (orderly_keyValue ((orderly_functions fuel).1 _) value indent)
      fun child next hnext => ?_
    dsimp only
    rw [extraEntriesAt_eq (hmap []) next indent hnext]
    refine located_bind (orderly_extraEntries
      (fun below => (orderly_functions fuel).2.1 _ below []) indent) fun extra last hlast => ?_
    exact raising_bind fun item => hlist _ last indent hlast

/-- At every amount of fuel the three functions do what the ones over the lines left do. -/
theorem parserAt_follows (lines : List Line) (fuel : ℕ) :
    Follows lines (blockAt lines fuel) (block fuel) ∧
      (∀ result, Follows lines (mapAt lines fuel · · result) (map fuel · · result)) ∧
      ∀ result, Follows lines (listAt lines fuel · · result) (list fuel · · result) := by
  induction fuel with
  | zero =>
    refine ⟨fun index indent _ => ?_, fun result index indent _ => ?_,
      fun result index indent _ => ?_⟩
    · rw [blockAt, block]
      rfl
    · dsimp only
      rw [mapAt, map]
      rfl
    · dsimp only
      rw [listAt, list]
      rfl
  | succ fuel ih =>
    obtain ⟨hblock, hmap, hlist⟩ := ih
    exact ⟨blockAt_succ hmap hlist, mapAt_succ hblock hmap, listAt_succ hblock hmap hlist⟩

/-- The first stored line is at the index 0. -/
theorem Parser.lineAt_zero (p : Parser) : lineAt p.lines 0 = .ok (p.lines.head p.nonempty) :=
  lineAt_of_drop (List.cons_head_tail p.nonempty).symm

/-- The block of a parser object. -/
theorem Parser.blockAt_eq (p : Parser) :
    blockAt p.lines (2 * p.lines.length + 2) 0 (p.lines.head p.nonempty).indent =
      located p.lines (block (2 * p.lines.length + 2) p.lines (p.lines.head p.nonempty).indent) :=
  (parserAt_follows p.lines _).1 0 _ (Nat.zero_le _)

/-- A parser object parses its lines as it does when it is given the lines left. -/
theorem Parser.parseAt_eq (p : Parser) : p.parseAt = raising p.parse := by
  rw [Parser.parseAt, p.lineAt_zero, Parser.parse]
  change (blockAt p.lines _ 0 _ >>= _) = _
  rw [p.blockAt_eq]
  have hsuffix := ((orderly_functions (2 * p.lines.length + 2)).1 p.lines
    (p.lines.head p.nonempty).indent).suffix
  cases hblock : block (2 * p.lines.length + 2) p.lines (p.lines.head p.nonempty).indent with
  | error e => rfl
  | ok result =>
    obtain ⟨value, rest⟩ := result
    have hlength := (hsuffix value rest hblock).length_le
    change (if p.lines.length - rest.length ≠ p.lines.length then _ else _) =
      raising (if rest ≠ [] then _ else _)
    by_cases hrest : rest ≠ []
    · have hpos := List.length_pos_of_ne_nil hrest
      rw [if_pos hrest, if_pos (by omega)]
    · rw [if_neg hrest, not_not.mp hrest, List.length_nil, Nat.sub_zero, if_neg (not_not.mpr rfl)]
      rfl

/-- Parsing a text ends in a tree, with the cursor behind the last stored line and every non-blank
line of the text carried in the tree at its place, or in a rejection: the fuel suffices, and neither
an index out of range nor a failed unpacking is raised. -/
theorem parseText_total (text : Str) :
    (∃ p value, Parser.init text = .ok p ∧ p.parse = .ok value ∧ parseText text = .ok value ∧
      blockAt p.lines (2 * p.lines.length + 2) 0 (p.lines.head p.nonempty).indent =
        .ok (value, p.lines.length) ∧
      p.lines.map Line.text = nonBlankLines text ∧
      List.Forall₂ Carries (walk nonEmptyLines value) (marked none p.lines)) ∨
      ∃ message, parseText text = .error (.failure (.workflowError message)) := by
  cases hinit : Parser.init text with
  | error e =>
    obtain ⟨message, rfl⟩ := onlyRejects_init text e hinit
    refine .inr ⟨message, ?_⟩
    rw [parseText, hinit]
    rfl
  | ok p =>
    have hparse : parseText text = raising p.parse := by
      rw [parseText, hinit, ← p.parseAt_eq]
      rfl
    cases hresult : p.parse with
    | error e =>
      obtain ⟨message, rfl⟩ := p.onlyRejects_parse e hresult
      exact .inr ⟨message, by rw [hparse, hresult]; rfl⟩
    | ok value =>
      refine .inl ⟨p, value, rfl, hresult, by rw [hparse, hresult]; rfl, ?_,
        (Parser.init_reads hinit).texts, Parser.carries_of_parse hinit hresult⟩
      obtain ⟨⟨read, rest⟩, hblock, hrest⟩ := bind_eq_ok_iff.mp hresult
      dsimp only at hrest
      rw [reject, Outcome.guard_eq_ok_iff, not_not] at hrest
      obtain ⟨rfl, hread⟩ := hrest
      obtain rfl := Except.ok.inj hread
      rw [p.blockAt_eq, hblock]
      rfl

end RealityCore.Workflow
