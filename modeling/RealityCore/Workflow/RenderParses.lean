import RealityCore.Workflow.Render

/-!
# Canonical texts satisfy the grammar

By induction on the tree. What a segment needs of the following lines is that they are less deep
than its own; only a value that ends on the line of its key must see them not deeper than the key.
-/

namespace RealityCore.Workflow

open Python (Str Dict splitLines)

/-- The following lines are less deep. -/
def Outside (indent : ℕ) (following : List Line) : Prop :=
  ∀ line ∈ following.head?, line.indent < indent

/-- Lines that are not deeper than a key are less deep than a block below it. -/
theorem Shallow.outside {indent below : ℕ} {following : List Line} (h : Shallow indent following)
    (hindent : indent < below) : Outside below following := fun line hline =>
  lt_of_le_of_lt (h line hline) hindent

/-- The entries of a dictionary are not deeper than its keys. -/
theorem Outside.shallow_entries {indent : ℕ} {following : List Line} (h : Outside indent following)
    (entries : List (Str × Value)) :
    Shallow indent (renderEntries indent entries ++ following) := by
  cases entries with
  | nil => exact fun line hline => (h line hline).le
  | cons entry rest =>
    intro line hline
    obtain rfl := Option.some.inj hline
    exact le_rfl

/-- The items of a list are not deeper than its dashes. -/
theorem Outside.shallow_items {indent : ℕ} {following : List Line} (h : Outside indent following)
    {items : List Value} (hitems : ItemsWellFormed items) :
    Shallow indent (renderItems indent items ++ following) := by
  match items, hitems with
  | [], _ => exact fun line hline => (h line hline).le
  | .map ((key, value) :: others) :: rest, _ =>
    intro line hline
    obtain rfl := Option.some.inj hline
    exact le_rfl

/-- A canonical line is split into its key and the text of its value. -/
theorem splitMapping_keyLine {key : Str} (hkey : IsKey key) (value : Value) :
    splitMapping (keyLine key value) = .ok (key, value.raw) := by
  rw [keyLine, splitMapping_eq_ok_iff]
  refine ⟨_, rfl, hkey, ?_⟩
  split
  · next h => rw [h]; rfl
  · rfl

/-- A canonical line without a dash is no list item. -/
theorem isItem_keyLine {key : Str} (hkey : IsKey key) (indent : ℕ) (value : Value) :
    (Line.mk indent (keyLine key value)).isItem = false := by
  rw [Line.isItem, Bool.eq_false_iff, Ne, List.isPrefixOf_iff_prefix, keyLine]
  rintro ⟨tail, htail⟩
  obtain ⟨hne, hchars⟩ := hkey
  match key, hne, hchars with
  | [_], _, _ => simp at htail
  | _ :: d :: _, _, hchars =>
    have hd : d = ' ' := by simp at htail; exact htail.2.1.symm
    have := hchars d (by simp)
    rw [hd] at this
    exact absurd this (by decide)

/-- A string of the format that ends in a newline is a block string. -/
theorem Scalar.WellFormed.blockString {value : Str} (h : (Scalar.str value).WellFormed)
    (htext : (Scalar.str value).IsText) : BlockString value :=
  h.resolve_left fun hplain => by
    have hnewline := (hplain.checks.unbroken _ (List.mem_of_getLast? htext)).1
    exact absurd hnewline (by decide)

/-- Any other string of the format is plain. -/
theorem Scalar.WellFormed.plainString {value : Str} (h : (Scalar.str value).WellFormed)
    (htext : ¬(Scalar.str value).IsText) : PlainString value :=
  h.resolve_right fun ⟨lines, _, hvalue, _⟩ =>
    htext (by simp [IsText, hvalue, Workflow.blockString])

/-- A block string has the lines it was made of. -/
theorem splitLines_blockString {lines : List Str} (hne : lines ≠ [])
    (h : ∀ line ∈ lines, line ≠ [] ∧ line.head? ≠ some ' ' ∧ LineChecks line) :
    splitLines (blockString lines) = lines := by
  rw [blockString, Python.join_newline_append hne, Python.splitLines_unlines]
  exact fun line hline c hc => ((h line hline).2.2.unbroken c hc).1

/-- The text of a scalar that is no block string is read back. -/
theorem Scalar.WellFormed.write {value : Scalar} (h : value.WellFormed) (htext : ¬value.IsText) :
    value.write ∉ blockIndicators ∧ value.write ≠ [] ∧
      scalar value.write = .ok (.scalar value) := by
  cases value with
  | bool value => cases value <;> exact ⟨by decide, by decide, rfl⟩
  | int value =>
    refine ⟨fun hmem => ?_, Nat.toDigits_ne_nil, scalar_toDigits value⟩
    have hindicators : ∀ word ∈ blockIndicators, word.all Char.isDigit = false := by
      decide +kernel
    have hdigits : (Scalar.int value).write.all Char.isDigit = true := List.all_eq_true.mpr
      fun c hc => Nat.isDigit_of_mem_toDigits (by decide) (by decide) hc
    exact absurd (hdigits.symm.trans (hindicators _ hmem)) (by decide)
  | str value =>
    have hplain := h.plainString htext
    have hwrite : (Scalar.str value).write = value := if_neg htext
    rw [hwrite]
    refine ⟨hplain.indicator, ?_, hplain.unchanged⟩
    rintro rfl
    have hempty := hplain.unchanged
    simp [scalar] at hempty

/-- A block string is the lines below its key, two columns in. -/
theorem Scalar.WellFormed.text {value : Str} (h : (Scalar.str value).WellFormed)
    (htext : (Scalar.str value).IsText) (indent : ℕ) {following : List Line}
    (hstop : Shallow indent following) :
    Parses (.value "|".toList indent (.scalar (.str value)))
      ((splitLines value).map fun line => ⟨indent + 2, line⟩) following := by
  obtain ⟨lines, hne, rfl, hlines⟩ := h.blockString htext
  have hbody : ∀ line ∈ lines.map fun line => Line.mk (indent + 2) line,
      line.indent = indent + 2 := by simp
  have hcontents : (lines.map fun line => Line.mk (indent + 2) line).map Line.content = lines := by
    rw [List.map_map]
    exact List.map_id lines
  have hbar : "|".toList ∈ blockIndicators ∧ "|".toList.head? ≠ some '>' := by decide
  have hparses := Parses.text hbar.1 hbar.2 hbody hstop
  rw [splitLines_blockString hne hlines]
  rwa [hcontents] at hparses

/-- The lines of a list start with a dash. -/
theorem head?_renderItems {items : List Value} (hne : items ≠ []) (hitems : ItemsWellFormed items)
    (indent : ℕ) :
    ∃ line ∈ (renderItems indent items).head?, line.indent = indent ∧ line.isItem = true := by
  match items, hne, hitems with
  | .map ((key, value) :: others) :: rest, _, _ => exact ⟨_, rfl, rfl, rfl⟩

/-- A scalar that is no block string has no line below its key. -/
theorem renderValue_of_not_isText {value : Scalar} (h : ¬value.IsText) (indent : ℕ) :
    renderValue indent (.scalar value) = [] := by
  cases value with
  | str value => rw [renderValue, if_neg h]
  | _ => rfl

/-- The text behind a key is no block indicator unless the value is a block string. -/
theorem raw_notMem_blockIndicators {value : Value} (hvalue : value.WellFormed)
    (hplain : ∀ s, value = .scalar s → ¬s.IsText) : value.raw ∉ blockIndicators := by
  cases value with
  | scalar s => exact (Scalar.WellFormed.write hvalue (hplain s rfl)).1
  | _ => exact show ([] : Str) ∉ blockIndicators by decide

mutual

/-- The lines of a value are read as the value. -/
theorem renderValue_parses (value : Value) (hvalue : value.WellFormed) (indent below : ℕ)
    (following : List Line) (hdeeper : indent < below) (houtside : Outside below following)
    (hempty : value = .map [] → Shallow indent following)
    (htext : ∀ s, value = .scalar s → s.IsText → below = indent + 2 ∧ Shallow indent following) :
    Parses (.value value.raw indent value) (renderValue below value) following := by
  match value with
  | .map [] => exact .empty (hempty rfl)
  | .map (entry :: rest) =>
    refine .nested hdeeper (.map ?_ ?_)
    · exact ⟨⟨below, keyLine entry.1 entry.2⟩, rfl, rfl, isItem_keyLine hvalue.1 below entry.2⟩
    · exact renderEntries_parses (entry :: rest) hvalue below following houtside
  | .list items =>
    refine .nested hdeeper (.list ?_ ?_)
    · exact head?_renderItems hvalue.1 hvalue.2 below
    · exact renderItems_parses items hvalue.2 below following houtside
  | .scalar s =>
    by_cases hs : s.IsText
    · obtain ⟨rfl, hstop⟩ := htext s rfl hs
      match s with
      | .str text =>
        rw [renderValue, if_pos hs, Value.raw, Scalar.write, if_pos hs]
        exact Scalar.WellFormed.text hvalue hs indent hstop
    · obtain ⟨hraw, hne, hscalar⟩ := Scalar.WellFormed.write hvalue hs
      rw [renderValue_of_not_isText hs]
      exact .scalar hraw hne hscalar

/-- The lines of entries are read as the entries. -/
theorem renderEntries_parses (entries : List (Str × Value)) (hentries : EntriesWellFormed entries)
    (indent : ℕ) (following : List Line) (houtside : Outside indent following) :
    Parses (.entries indent entries) (renderEntries indent entries) following := by
  match entries with
  | [] => exact .entriesEnd fun line hline hindent => absurd hindent (houtside line hline).ne
  | (key, value) :: rest =>
    obtain ⟨hkey, hnew, hvalue, hrest⟩ := hentries
    have hstop := houtside.shallow_entries rest
    refine .entry rfl (isItem_keyLine hkey indent value) (splitMapping_keyLine hkey value) hnew
      ?_ ?_
    · exact renderValue_parses value hvalue indent (indent + 2) _ (by omega)
        (hstop.outside (by omega)) (fun _ => hstop) fun _ _ _ => ⟨rfl, hstop⟩
    · exact renderEntries_parses rest hrest indent following houtside

/-- The lines of items are read as the items. -/
theorem renderItems_parses (items : List Value) (hitems : ItemsWellFormed items) (indent : ℕ)
    (following : List Line) (houtside : Outside indent following) :
    Parses (.items indent items) (renderItems indent items) following := by
  match items with
  | [] => exact .itemsEnd fun line hline hindent => absurd hindent (houtside line hline).ne
  | .map ((key, value) :: others) :: rest =>
    obtain ⟨⟨hdash, hplain, hempty⟩, ⟨hkey, hnew, hvalue, hothers⟩, hrest⟩ := hitems
    have hstop := houtside.shallow_items hrest
    have houtside' : Outside (indent + 2) (renderItems indent rest ++ following) :=
      hstop.outside (by omega)
    have hmore := houtside'.shallow_entries others
    refine .item rfl rfl (splitMapping_keyLine hkey value) hdash
      (raw_notMem_blockIndicators hvalue hplain) hnew ?_ ?_ ?_
    · refine renderValue_parses value hvalue indent (indent + 4) _ (by omega)
        (hmore.outside (by omega)) (fun hnil => ?_) fun s hs htext => absurd htext (hplain s hs)
      rw [hempty hnil]
      exact hstop
    · match others, hothers with
      | [], _ => exact .extraEnd hstop
      | entry :: others, hothers =>
        exact .extra rfl (show indent < indent + 2 by omega)
          (renderEntries_parses (entry :: others) hothers (indent + 2) _ houtside')
    · exact renderItems_parses rest hrest indent following houtside

end

/-- The lines of some entries stand in front of any that are read as the entries after them. -/
theorem renderEntries_append_parses {front rest : List (Str × Value)}
    (hentries : EntriesWellFormed (front ++ rest)) {indent : ℕ} {lines following : List Line}
    (hstop : Shallow indent (lines ++ following))
    (hrest : Parses (.entries indent rest) lines following) :
    Parses (.entries indent (front ++ rest)) (renderEntries indent front ++ lines) following := by
  induction front with
  | nil => exact hrest
  | cons entry front ih =>
    obtain ⟨key, value⟩ := entry
    obtain ⟨hkey, hnew, hvalue, hlater⟩ := hentries
    have hbelow : Shallow indent (renderEntries indent front ++ lines ++ following) := by
      cases front with
      | nil => exact hstop
      | cons next front =>
        intro line hline
        obtain rfl := Option.some.inj hline
        exact le_rfl
    have hparses := renderValue_parses value hvalue indent (indent + 2) _ (by omega)
      (hbelow.outside (by omega)) (fun _ => hbelow) fun _ _ _ => ⟨rfl, hbelow⟩
    rw [renderEntries, List.cons_append, List.cons_append, List.append_assoc]
    exact .entry rfl (isItem_keyLine hkey indent value) (splitMapping_keyLine hkey value) hnew
      hparses (ih hlater)

end RealityCore.Workflow
