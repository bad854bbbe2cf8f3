import RealityCore.Workflow.KeyLines

/-!
# The lines in the parsed value

A walk through a parsed value in document order meets the lines of the text one by one. The
lines of a block string are those that are not empty: a block scalar without lines is stored as
a newline, which `splitlines` reads as one empty line.
-/

namespace RealityCore.Workflow

open Python (Str Dict isLineBreak splitLines nonBlankLines)

/-- What a walk emits: a key with its scalar or an opening marker, or a line of a block string. -/
inductive Item where
  | entry (key : Str) (value : Option Scalar)
  | text (line : Str)
  deriving DecidableEq

/-- The scalar of an entry, or nothing where the value opens further lines. -/
def opening : Value → Option Scalar
  | .scalar value => if value.IsText then none else some value
  | _ => none

/-- The emitted lines of a scalar, with the given way to split a block string. -/
def textItems (split : Str → List Str) : Scalar → List Item
  | .str value => if (Scalar.str value).IsText then (split value).map .text else []
  | _ => []

mutual

/-- The items of a value in document order. -/
def walk (split : Str → List Str) : Value → List Item
  | .map entries => walkEntries split entries
  | .list items => walkItems split items
  | .scalar value => textItems split value

/-- The items of the entries of a dictionary. -/
def walkEntries (split : Str → List Str) : List (Str × Value) → List Item
  | [] => []
  | (key, value) :: rest =>
    .entry key (opening value) :: (walk split value ++ walkEntries split rest)

/-- The items of the values of a list. -/
def walkItems (split : Str → List Str) : List Value → List Item
  | [] => []
  | value :: rest => walk split value ++ walkItems split rest

end

/-- The lines of a block string that are not empty. -/
def nonEmptyLines (value : Str) : List Str := (splitLines value).filter (fun line => line ≠ [])

/-- What `_scalar` gives for the text after a colon, where it is a scalar of that line. -/
def rawScalar (raw : Str) : Option Scalar :=
  if raw ∈ blockIndicators then none
  else match scalar raw with
    | .ok (.scalar value) => some value
    | _ => none

/-- An item carries a line: the content inside a block scalar, the key and its scalar elsewhere. -/
inductive Carries : Item → Bool × Line → Prop
  | text (line : Line) : Carries (.text line.content) (true, line)
  | entry {line : Line} {key raw : Str} (h : splitMapping line.keyText = .ok (key, raw)) :
      Carries (.entry key (rawScalar raw)) (false, line)

/-- A stretch of lines is emitted as the given items. -/
def Emits (items : List Item) (opened : Option ℕ) (lines following : List Line) : Prop :=
  ∃ marks, marked opened (lines ++ following) = marks ++ marked none following ∧
    List.Forall₂ Carries items marks

/-- Nothing is emitted between two lines outside of block scalars. -/
theorem Emits.nil (following : List Line) : Emits [] none [] following := ⟨[], rfl, .nil⟩

/-- Stretches of lines are emitted one after the other. -/
theorem Emits.append {items items' : List Item} {opened : Option ℕ}
    {lines lines' following : List Line} (h : Emits items opened lines (lines' ++ following))
    (h' : Emits items' none lines' following) :
    Emits (items ++ items') opened (lines ++ lines') following := by
  obtain ⟨marks, hmarks, hitems⟩ := h
  obtain ⟨marks', hmarks', hitems'⟩ := h'
  refine ⟨marks ++ marks', ?_, List.rel_append hitems hitems'⟩
  rw [List.append_assoc, hmarks, hmarks', List.append_assoc]

/-- A key line is emitted in front of the lines of its value. -/
theorem Emits.key {items : List Item} {line : Line} {key raw : Str} {lines following : List Line}
    (hsplit : splitMapping line.keyText = .ok (key, raw))
    (h : Emits items (openedBy raw line.indent) lines following) :
    Emits (.entry key (rawScalar raw) :: items) none (line :: lines) following := by
  obtain ⟨marks, hmarks, hitems⟩ := h
  refine ⟨(false, line) :: marks, ?_, .cons (.entry hsplit) hitems⟩
  rw [List.cons_append, marked_key hsplit, hmarks, List.cons_append]

/-- The lines of a block scalar are emitted as they are. -/
theorem Emits.text {indent : ℕ} {lines following : List Line}
    (hlines : ∀ line ∈ lines, line.indent = indent + 2) (hstop : Shallow indent following) :
    Emits (lines.map fun line => .text line.content) (some indent) lines following := by
  have hdeeper : ∀ line ∈ lines, indent < line.indent := fun line hline => by
    rw [hlines line hline]
    omega
  refine ⟨lines.map (true, ·), ?_, ?_⟩
  · rw [marked_deeper hdeeper, marked_shallow hstop]
  · rw [List.forall₂_map_left_iff, List.forall₂_map_right_iff]
    exact List.forall₂_same.mpr fun line _ => .text line

/-- The lines of a block string are the lines it was made of. -/
theorem nonEmptyLines_blockString {contents : List Str} (hne : ∀ line ∈ contents, line ≠ [])
    (hbreak : ∀ line ∈ contents, ∀ c ∈ line, isLineBreak c = false) :
    nonEmptyLines (blockString contents) = contents := by
  by_cases hnil : contents = []
  · rw [hnil]
    decide
  · rw [nonEmptyLines, blockString, Python.join_newline_append hnil,
      Python.splitLines_unlines hbreak, List.filter_eq_self]
    exact fun line hline => decide_eq_true (hne line hline)

/-- A plain scalar is no block string. -/
theorem opening_of_scalar {raw : Str} {value : Value} (hraw : raw ∉ blockIndicators)
    (hne : raw ≠ []) (hnewline : '\n' ∉ raw) (h : scalar raw = .ok value) :
    opening value = rawScalar raw ∧ walk nonEmptyLines value = [] := by
  have hplain : ∃ s : Scalar, value = .scalar s ∧ ¬s.IsText := by
    rcases scalar_eq_ok h with ⟨hnil, -⟩ | ⟨-, rfl⟩ | ⟨-, rfl⟩ | ⟨-, rfl⟩ | ⟨-, rfl⟩
    · exact absurd hnil hne
    · exact ⟨_, rfl, id⟩
    · exact ⟨_, rfl, id⟩
    · exact ⟨_, rfl, id⟩
    · exact ⟨_, rfl, fun hlast => hnewline (List.mem_of_getLast? hlast)⟩
  obtain ⟨s, rfl, hs⟩ := hplain
  refine ⟨by simp [opening, rawScalar, hraw, h, hs], ?_⟩
  cases s with
  | str value => simp [walk, textItems, hs]
  | _ => rfl

/-- What the walk emits for a segment, with the mark that holds before its lines. -/
def Walked : Segment → List Line → List Line → Prop
  | .block _ value, lines, following => Emits (walk nonEmptyLines value) none lines following
  | .value raw indent value, lines, following => '\n' ∉ raw →
      opening value = rawScalar raw ∧
        Emits (walk nonEmptyLines value) (openedBy raw indent) lines following
  | .entries _ entries, lines, following | .extra _ entries, lines, following =>
      Emits (walkEntries nonEmptyLines entries) none lines following
  | .items _ items, lines, following => Emits (walkItems nonEmptyLines items) none lines following

/-- The walk through the value of a segment emits its lines. -/
theorem Parses.walked {segment : Segment} {lines following : List Line}
    (h : Parses segment lines following) (hlines : ∀ line ∈ lines, line.Plain) :
    Walked segment lines following := by
  induction h with
  | map _ _ ih => exact ih hlines
  | list _ _ ih => exact ih hlines
  | @text indent raw body following hraw _ hbody hstop =>
    intro _
    have htext : (Scalar.str (blockString (body.map Line.content))).IsText := by
      simp [Scalar.IsText, blockString]
    have hcontents : nonEmptyLines (blockString (body.map Line.content)) =
        body.map Line.content :=
      nonEmptyLines_blockString (List.forall_mem_map.mpr fun line hline => (hlines line hline).1)
        (List.forall_mem_map.mpr fun line hline => (hlines line hline).2)
    refine ⟨by simp [opening, rawScalar, htext, hraw], ?_⟩
    rw [walk, textItems, if_pos htext, hcontents, List.map_map, openedBy, if_pos hraw]
    exact .text hbody hstop
  | scalar hraw hne hscalar =>
    intro hnewline
    obtain ⟨hopening, hwalk⟩ := opening_of_scalar hraw hne hnewline hscalar
    rw [hwalk, openedBy_of_notMem hraw]
    exact ⟨hopening, .nil _⟩
  | empty => exact fun _ => ⟨rfl, .nil _⟩
  | nested _ hblock ih =>
    refine fun _ => ⟨?_, ih hlines⟩
    cases hblock <;> rfl
  | entriesEnd => exact .nil _
  | itemsEnd => exact .nil _
  | extraEnd => exact .nil _
  | extra _ _ _ ih => exact ih hlines
  | entry hindent hitem hsplit _ _ _ ihvalue ihentries =>
    obtain ⟨hline, hrest⟩ := List.forall_mem_cons.mp hlines
    obtain ⟨hbelow, hlines⟩ := List.forall_mem_append.mp hrest
    rw [← Line.keyText_of_not_isItem hitem] at hsplit
    obtain ⟨hopening, hvalue⟩ := ihvalue hbelow (hline.newline_notMem hsplit)
    rw [Walked, walkEntries, hopening, ← List.cons_append]
    rw [← hindent] at hvalue
    exact (Emits.key hsplit hvalue).append (ihentries hlines)
  | item hindent hitem hsplit _ _ _ _ _ _ ihvalue ihextra ihitems =>
    obtain ⟨hline, hrest⟩ := List.forall_mem_cons.mp hlines
    obtain ⟨hbelow, hrest⟩ := List.forall_mem_append.mp hrest
    obtain ⟨hextra, hlines⟩ := List.forall_mem_append.mp hrest
    rw [← Line.keyText_of_isItem hitem] at hsplit
    obtain ⟨hopening, hvalue⟩ := ihvalue hbelow (hline.newline_notMem hsplit)
    rw [← hindent] at hvalue
    have hentry := Emits.key hsplit hvalue
    rw [← List.append_assoc] at hentry
    have hitem := hentry.append ((ihextra hextra).append (ihitems hlines))
    rwa [Walked, walkItems, walk, walkEntries, hopening, List.cons_append, List.append_assoc]

/-- The items of a walk carry the stored lines, one by one. -/
theorem Parser.carries_of_parse {text : Str} {p : Parser} {value : Value}
    (hinit : Parser.init text = .ok p) (hparse : p.parse = .ok value) :
    List.Forall₂ Carries (walk nonEmptyLines value) (marked none p.lines) := by
  have hreads := Parser.init_reads hinit
  obtain ⟨marks, hmarks, hcarries⟩ : Emits (walk nonEmptyLines value) none p.lines [] :=
    (Parser.parses_of_parse hreads.noEmptyItem hparse).walked hreads.plain
  have hall : marked none p.lines = marks := by simpa [marked] using hmarks
  exact hall ▸ hcarries

/-- A walk emits one item for each line, and each item carries its line: no line of an accepted
text is lost, duplicated or moved. -/
theorem walk_carries_lines (text : Str) (p : Parser) (value : Value)
    (hinit : Parser.init text = .ok p) (hparse : p.parse = .ok value) :
    p.lines.map Line.text = nonBlankLines text ∧
      (walk nonEmptyLines value).length = (nonBlankLines text).length ∧
      List.Forall₂ Carries (walk nonEmptyLines value) (marked none p.lines) := by
  have htexts := (Parser.init_reads hinit).texts
  have hcarries := Parser.carries_of_parse hinit hparse
  refine ⟨htexts, ?_, hcarries⟩
  calc
    (walk nonEmptyLines value).length = (marked none p.lines).length := hcarries.length_eq
    _ = p.lines.length := by rw [← List.length_map, map_snd_marked]
    _ = (nonBlankLines text).length := by rw [← htexts, List.length_map]

/-- The walk through a list item with a block scalar. -/
theorem walk_carries_lines_run :
    let value := Value.list [.map [("name".toList, .scalar (.str "CI".toList)),
      ("run".toList, .scalar (.str "make\n".toList))]]
    (walk nonEmptyLines value).length = 3 ∧
      List.Forall₂ Carries (walk nonEmptyLines value)
        [(false, ⟨0, "- name: CI".toList⟩), (false, ⟨2, "run: |".toList⟩),
          (true, ⟨4, "make".toList⟩)] :=
  (walk_carries_lines "- name: CI\n  run: |\n    make\n".toList
    ⟨[⟨0, "- name: CI".toList⟩, ⟨2, "run: |".toList⟩, ⟨4, "make".toList⟩], List.cons_ne_nil _ _⟩
    _ rfl rfl).2

/-- With the empty lines of `splitlines` a walk can emit more items than the text has lines. -/
theorem walk_splitLines_emptyText :
    ∃ p value, Parser.init "a: |\n".toList = .ok p ∧ p.parse = .ok value ∧
      (walk splitLines value).length ≠ (nonBlankLines "a: |\n".toList).length :=
  ⟨⟨[⟨0, "a: |".toList⟩], List.cons_ne_nil _ _⟩,
    .map [("a".toList, .scalar (.str "\n".toList))], rfl, rfl, by decide⟩

end RealityCore.Workflow
