import RealityCore.Workflow.Grammar

/-!
# The parser accepts the grammar

By induction on the rules: each parsing function, with two units of fuel for each line, reads
the lines of a segment and stops in front of the lines that follow it.
-/

namespace RealityCore.Workflow

open Python (Str Dict)

/-- The function for a segment reads its lines and stops in front of the following ones. -/
def Returns : Segment → List Line → List Line → Prop
  | .block indent value, lines, following => ∀ fuel, 2 * lines.length + 2 ≤ fuel →
      block fuel (lines ++ following) indent = .ok (value, following)
  | .value raw indent value, lines, following => ∀ fuel, 2 * lines.length + 2 ≤ fuel →
      entryValue (block fuel) raw (lines ++ following) indent = .ok (value, following)
  | .entries indent entries, lines, following => ∀ fuel result, 2 * lines.length + 1 ≤ fuel →
      (∀ key ∈ entries.keys, key ∉ Dict.keys result) →
      map fuel (lines ++ following) indent result = .ok (result ++ entries, following)
  | .items indent items, lines, following => ∀ fuel result, 2 * lines.length + 1 ≤ fuel →
      list fuel (lines ++ following) indent result = .ok (result ++ items, following)
  | .extra indent entries, lines, following => ∀ fuel, 2 * lines.length + 1 ≤ fuel →
      extraEntries (map fuel · · []) (lines ++ following) indent = .ok (entries, following)

/-- The keys of the entries in a segment are distinct. -/
theorem Parses.nodup {segment : Segment} {lines following : List Line}
    (h : Parses segment lines following) :
    match segment with
    | .entries _ entries | .extra _ entries => (Dict.keys entries).Nodup
    | _ => True := by
  induction h with
  | entriesEnd | extraEnd => exact List.nodup_nil
  | entry _ _ _ hkey _ _ _ ih => exact List.nodup_cons.mpr ⟨hkey, ih⟩
  | extra _ _ _ ih => exact ih
  | _ => trivial

/-- The lines of a block scalar are read up to the first line that is not deeper. -/
theorem blockLines_append {indent : ℕ} {lines following : List Line}
    (hlines : ∀ line ∈ lines, line.indent = indent + 2) (hstop : Shallow indent following) :
    blockLines indent (lines ++ following) = .ok (lines.map Line.content, following) := by
  induction lines with
  | nil =>
    cases following with
    | nil => rfl
    | cons line following => exact if_neg (not_lt.mpr (hstop line rfl))
  | cons line lines ih =>
    obtain ⟨hline, hlines⟩ := List.forall_mem_cons.mp hlines
    rw [List.cons_append, blockLines, if_pos (by omega), if_neg (not_not.mpr hline), ih hlines]
    rfl

/-- Entries with new keys are added to an item. -/
theorem addExtra_append {item extra : Dict Str Value} (h : (item ++ extra).keys.Nodup) :
    addExtra item extra = .ok (item ++ extra) := by
  induction extra generalizing item with
  | nil => rw [addExtra, List.append_nil]
  | cons entry extra ih =>
    obtain ⟨key, value⟩ := entry
    have hassoc : item ++ (key, value) :: extra = item ++ [(key, value)] ++ extra := by simp
    have hkey : key ∉ item.keys := by
      intro hmem
      rw [Dict.keys, List.map_append, List.map_cons, List.nodup_append] at h
      exact h.2.2 key hmem key List.mem_cons_self rfl
    rw [addExtra, if_neg hkey, Dict.set_of_notMem hkey, ih (hassoc ▸ h), hassoc]

/-- A value on lines of its own is read. -/
theorem Returns.nested {indent below : ℕ} {value : Value} {lines following : List Line}
    (hdeeper : indent < below) (hblock : Parses (.block below value) lines following)
    (h : Returns (.block below value) lines following) :
    Returns (.value [] indent value) lines following := by
  intro fuel hfuel
  obtain ⟨line, hline, rfl, -⟩ := hblock.head?_block
  obtain ⟨rest, rfl⟩ := List.head?_eq_some_iff.mp hline
  rw [entryValue, if_neg (by decide)]
  simp only [keyValue, ne_eq, not_true_eq_false, if_false, List.cons_append, if_pos hdeeper]
  exact h fuel hfuel

/-- The loop over the entries stops at a line that is no entry of the dictionary. -/
theorem Returns.entriesEnd {indent : ℕ} {following : List Line}
    (hstop : ∀ line ∈ following.head?, line.indent = indent → line.isItem = true) :
    Returns (.entries indent []) [] following := by
  intro fuel result hfuel _
  cases fuel with
  | zero => simp at hfuel
  | succ fuel =>
    cases following with
    | nil => simp [map]
    | cons line following =>
      have hend : line.indent ≠ indent ∨ line.isItem = true :=
        or_iff_not_imp_left.mpr fun h => hstop line rfl (not_not.mp h)
      rw [List.nil_append, map, if_pos hend, List.append_nil]

/-- The loop over the items stops at a line that is no item of the list. -/
theorem Returns.itemsEnd {indent : ℕ} {following : List Line}
    (hstop : ∀ line ∈ following.head?, line.indent = indent → line.isItem = false) :
    Returns (.items indent []) [] following := by
  intro fuel result hfuel
  cases fuel with
  | zero => simp at hfuel
  | succ fuel =>
    cases following with
    | nil => simp [list]
    | cons line following =>
      have hend : line.indent ≠ indent ∨ ¬line.isItem = true :=
        or_iff_not_imp_left.mpr fun h => by simp [hstop line rfl (not_not.mp h)]
      rw [List.nil_append, list, if_pos hend, List.append_nil]

/-- One entry is read and then the entries after it. -/
theorem Returns.entry {indent : ℕ} {key raw : Str} {value : Value} {entries : Dict Str Value}
    {line : Line} {below lines following : List Line} (hindent : line.indent = indent)
    (hitem : line.isItem = false) (hsplit : splitMapping line.content = .ok (key, raw))
    (hkey : key ∉ entries.keys)
    (hvalue : Returns (.value raw indent value) below (lines ++ following))
    (hentries : Returns (.entries indent entries) lines following) :
    Returns (.entries indent ((key, value) :: entries)) (line :: (below ++ lines)) following := by
  intro fuel result hfuel hnew
  obtain ⟨hkeyNew, hnew⟩ := List.forall_mem_cons.mp hnew
  cases fuel with
  | zero => simp at hfuel
  | succ fuel =>
    simp only [List.length_cons, List.length_append] at hfuel
    have hread := hvalue fuel (by omega)
    have hset : ∀ k ∈ entries.keys, k ∉ Dict.keys (result ++ [(key, value)]) := by
      intro k hk hmem
      simp only [Dict.keys, List.map_append, List.mem_append, List.map_cons, List.map_nil,
        List.mem_singleton] at hmem
      rcases hmem with hmem | rfl
      · exact hnew k hk hmem
      · exact hkey hk
    have hloop := hentries fuel (result ++ [(key, value)]) (by omega) hset
    have hgo : ¬(line.indent ≠ indent ∨ line.isItem = true) := by simp [hindent, hitem]
    rw [List.cons_append, map, if_neg hgo, hsplit, List.append_assoc]
    simp only [bind, Except.bind, if_neg hkeyNew, hread, Dict.set_of_notMem hkeyNew, hloop]
    rw [List.append_assoc, List.singleton_append]

/-- One item is read and then the items after it. -/
theorem Returns.item {indent : ℕ} {key raw : Str} {value : Value} {entries : Dict Str Value}
    {items : List Value} {line : Line} {below extra lines following : List Line}
    (hindent : line.indent = indent) (hitem : line.isItem = true)
    (hsplit : splitMapping (line.content.drop 2) = .ok (key, raw)) (hdash : key ≠ ['-'])
    (hraw : raw ∉ blockIndicators) (hkeys : (Dict.keys ((key, value) :: entries)).Nodup)
    (hvalue : Returns (.value raw indent value) below (extra ++ (lines ++ following)))
    (hextra : Returns (.extra indent entries) extra (lines ++ following))
    (hitems : Returns (.items indent items) lines following) :
    Returns (.items indent (.map ((key, value) :: entries) :: items))
      (line :: (below ++ (extra ++ lines))) following := by
  intro fuel result hfuel
  cases fuel with
  | zero => simp at hfuel
  | succ fuel =>
    simp only [List.length_cons, List.length_append] at hfuel
    have hread := hvalue fuel (by omega)
    rw [entryValue, if_neg hraw] at hread
    have hmore := hextra fuel (by omega)
    have hadd : addExtra [(key, value)] entries = .ok ((key, value) :: entries) :=
      addExtra_append hkeys
    have hloop := hitems fuel (result ++ [.map ((key, value) :: entries)]) (by omega)
    have hgo : ¬(line.indent ≠ indent ∨ ¬line.isItem = true) := by simp [hindent, hitem]
    obtain ⟨tail, hcontent, hkey, -⟩ := splitMapping_eq_ok_iff.mp hsplit
    have hne : line.content.drop 2 ≠ [] := by simp [hcontent]
    have hdashed : ¬(key = [] ∨ key = ['-']) := not_or.mpr ⟨hkey.1, hdash⟩
    rw [List.cons_append, list, if_neg hgo, if_neg hne, hsplit, List.append_assoc,
      List.append_assoc]
    simp only [bind, Except.bind, if_neg hdashed, if_neg hraw, hread, hmore, hadd, hloop]
    rw [List.append_assoc, List.singleton_append]

/-- The first line of a stretch is the first line of what is left to read. -/
theorem exists_cons_of_head? {lines following : List Line} {line : Line}
    (h : line ∈ lines.head?) : ∃ rest, lines ++ following = line :: rest := by
  obtain ⟨rest, rfl⟩ := List.head?_eq_some_iff.mp h
  exact ⟨rest ++ following, rfl⟩

/-- Every segment of the grammar is read by its function. -/
theorem Parses.returns {segment : Segment} {lines following : List Line}
    (h : Parses segment lines following) : Returns segment lines following := by
  induction h with
  | map hfirst _ ih =>
    obtain ⟨line, hline, hindent, hitem⟩ := hfirst
    intro fuel hfuel
    cases fuel with
    | zero => simp at hfuel
    | succ fuel =>
      have hmap := ih fuel [] (by omega) (by simp [Dict.keys])
      obtain ⟨rest, hrest⟩ := exists_cons_of_head? hline
      rw [hrest] at hmap ⊢
      rw [block, if_neg (not_not.mpr hindent), if_neg (by simp [hitem]), hmap]
      rfl
  | list hfirst _ ih =>
    obtain ⟨line, hline, hindent, hitem⟩ := hfirst
    intro fuel hfuel
    cases fuel with
    | zero => simp at hfuel
    | succ fuel =>
      have hlist := ih fuel [] (by omega)
      obtain ⟨rest, hrest⟩ := exists_cons_of_head? hline
      rw [hrest] at hlist ⊢
      rw [block, if_neg (not_not.mpr hindent), if_pos hitem, hlist]
      rfl
  | text hraw hfolded hlines hstop =>
    intro fuel _
    rw [entryValue, if_pos hraw, if_neg hfolded, blockLines_append hlines hstop]
    rfl
  | scalar hraw hne hscalar =>
    intro fuel _
    rw [entryValue, if_neg hraw, keyValue.eq_def, if_pos hne, hscalar]
    rfl
  | @empty indent following hstop =>
    intro fuel _
    rw [entryValue, if_neg (by decide)]
    cases following with
    | nil => rfl
    | cons line following => exact if_neg (not_lt.mpr (hstop line rfl))
  | nested hdeeper hblock ih => exact ih.nested hdeeper hblock
  | entriesEnd hstop => exact .entriesEnd hstop
  | entry hindent hitem hsplit hkey _ _ ihvalue ihentries =>
    exact ihvalue.entry hindent hitem hsplit hkey ihentries
  | itemsEnd hstop => exact .itemsEnd hstop
  | item hindent hitem hsplit hdash hraw hkey _ hextra _ ihvalue ihextra ihitems =>
    have hkeys := List.nodup_cons.mpr ⟨hkey, hextra.nodup⟩
    exact ihvalue.item hindent hitem hsplit hdash hraw hkeys ihextra ihitems
  | @extraEnd indent following hstop =>
    intro fuel _
    cases following with
    | nil => rfl
    | cons line following => exact if_neg (not_lt.mpr (hstop line rfl))
  | extra hfirst hdeeper _ ih =>
    intro fuel hfuel
    obtain ⟨rest, hrest⟩ := List.head?_eq_some_iff.mp hfirst
    have hmap := ih fuel [] hfuel (by simp [Dict.keys])
    rw [hrest] at hmap ⊢
    exact (if_pos hdeeper).trans hmap

/-- The parser returns a value exactly when the grammar makes it of all the lines. -/
theorem Parser.parse_eq_ok_iff {p : Parser} {value : Value} (hlines : NoEmptyItem p.lines) :
    p.parse = .ok value ↔ Parses (.block (p.lines.head p.nonempty).indent value) p.lines [] := by
  constructor
  · exact Parser.parses_of_parse hlines
  · intro h
    have hblock := h.returns _ le_rfl
    rw [List.append_nil] at hblock
    rw [Parser.parse, hblock]
    rfl

end RealityCore.Workflow
