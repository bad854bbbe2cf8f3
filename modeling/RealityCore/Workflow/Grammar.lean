import RealityCore.Workflow.Parser

/-!
# The grammar of the workflow format

A relation between stretches of lines and what the parser makes of them, with one rule for each
way in which a parsing function can go on. Each rule names the lines that follow, since every
loop of the parser stops at the first line that does not fit. The parser returns a value exactly
when the relation holds of all its lines.
-/

namespace RealityCore.Workflow

open Outcome (bind_eq_ok_iff guard_eq_ok_iff)
open Python (Str Dict)

/-- What a stretch of lines is read as. -/
inductive Segment where
  | block (indent : ℕ) (value : Value)
  | value (raw : Str) (indent : ℕ) (value : Value)
  | entries (indent : ℕ) (entries : Dict Str Value)
  | items (indent : ℕ) (items : List Value)
  | extra (indent : ℕ) (entries : Dict Str Value)

/-- No deeper line follows. -/
def Shallow (indent : ℕ) (following : List Line) : Prop :=
  ∀ line ∈ following.head?, line.indent ≤ indent

/-- A stretch of lines, with the lines that follow it, is read as a segment. -/
inductive Parses : Segment → List Line → List Line → Prop
  | map {indent entries lines following}
      (hfirst : ∃ line ∈ lines.head?, line.indent = indent ∧ line.isItem = false)
      (hentries : Parses (.entries indent entries) lines following) :
      Parses (.block indent (.map entries)) lines following
  | list {indent items lines following}
      (hfirst : ∃ line ∈ lines.head?, line.indent = indent ∧ line.isItem = true)
      (hitems : Parses (.items indent items) lines following) :
      Parses (.block indent (.list items)) lines following
  | text {indent raw lines following} (hraw : raw ∈ blockIndicators)
      (hfolded : raw.head? ≠ some '>') (hlines : ∀ line ∈ lines, line.indent = indent + 2)
      (hstop : Shallow indent following) :
      Parses (.value raw indent (.scalar (.str (blockString (lines.map Line.content))))) lines
        following
  | scalar {indent raw value following} (hraw : raw ∉ blockIndicators) (hne : raw ≠ [])
      (hscalar : scalar raw = .ok value) : Parses (.value raw indent value) [] following
  | empty {indent following} (hstop : Shallow indent following) :
      Parses (.value [] indent (.map [])) [] following
  | nested {indent below value lines following} (hdeeper : indent < below)
      (hblock : Parses (.block below value) lines following) :
      Parses (.value [] indent value) lines following
  | entriesEnd {indent following}
      (hstop : ∀ line ∈ following.head?, line.indent = indent → line.isItem = true) :
      Parses (.entries indent []) [] following
  | entry {indent key raw value entries line below lines following}
      (hindent : line.indent = indent) (hitem : line.isItem = false)
      (hsplit : splitMapping line.content = .ok (key, raw)) (hkey : key ∉ Dict.keys entries)
      (hvalue : Parses (.value raw indent value) below (lines ++ following))
      (hentries : Parses (.entries indent entries) lines following) :
      Parses (.entries indent ((key, value) :: entries)) (line :: (below ++ lines)) following
  | itemsEnd {indent following}
      (hstop : ∀ line ∈ following.head?, line.indent = indent → line.isItem = false) :
      Parses (.items indent []) [] following
  | item {indent key raw value entries items line below extra lines following}
      (hindent : line.indent = indent) (hitem : line.isItem = true)
      (hsplit : splitMapping (line.content.drop 2) = .ok (key, raw)) (hdash : key ≠ ['-'])
      (hraw : raw ∉ blockIndicators) (hkey : key ∉ Dict.keys entries)
      (hvalue : Parses (.value raw indent value) below (extra ++ (lines ++ following)))
      (hextra : Parses (.extra indent entries) extra (lines ++ following))
      (hitems : Parses (.items indent items) lines following) :
      Parses (.items indent (.map ((key, value) :: entries) :: items))
        (line :: (below ++ (extra ++ lines))) following
  | extraEnd {indent following} (hstop : Shallow indent following) :
      Parses (.extra indent []) [] following
  | extra {indent entries line lines following} (hfirst : line ∈ (lines ++ following).head?)
      (hdeeper : indent < line.indent)
      (hentries : Parses (.entries line.indent entries) lines following) :
      Parses (.extra indent entries) lines following

/-! ## What the parser returns satisfies the grammar -/

/-- The loop over a block scalar stops at the first line that is not deeper. -/
theorem blockLines_eq_ok {indent : ℕ} {lines rest : List Line} {contents : List Str}
    (h : blockLines indent lines = .ok (contents, rest)) :
    ∃ body, lines = body ++ rest ∧ contents = body.map Line.content ∧
      (∀ line ∈ body, line.indent = indent + 2) ∧ Shallow indent rest := by
  induction lines generalizing contents with
  | nil =>
    obtain ⟨rfl, rfl⟩ := Prod.mk.inj (Except.ok.inj h)
    exact ⟨[], rfl, rfl, by simp, by simp [Shallow]⟩
  | cons line lines ih =>
    rw [blockLines] at h
    by_cases hdeeper : indent < line.indent
    · rw [if_pos hdeeper, reject, guard_eq_ok_iff, not_not] at h
      obtain ⟨hindent, h⟩ := h
      obtain ⟨⟨contents', rest'⟩, hbody, h⟩ := bind_eq_ok_iff.mp h
      obtain ⟨rfl, rfl⟩ := Prod.mk.inj (Except.ok.inj h)
      obtain ⟨body, rfl, rfl, hall, hstop⟩ := ih hbody
      exact ⟨line :: body, rfl, rfl, List.forall_mem_cons.mpr ⟨hindent, hall⟩, hstop⟩
    · rw [if_neg hdeeper] at h
      obtain ⟨rfl, rfl⟩ := Prod.mk.inj (Except.ok.inj h)
      exact ⟨[], rfl, rfl, by simp, by simpa [Shallow] using hdeeper⟩

/-- Adding further entries keeps the item and refuses its keys. -/
theorem addExtra_eq_ok {item extra result : Dict Str Value} (h : addExtra item extra = .ok result) :
    result = item ++ extra ∧ ∀ key ∈ extra.keys, key ∉ item.keys := by
  induction extra generalizing item with
  | nil =>
    obtain rfl := Except.ok.inj h
    simp [Dict.keys]
  | cons entry extra ih =>
    obtain ⟨key, value⟩ := entry
    rw [addExtra, rejectKey, guard_eq_ok_iff] at h
    obtain ⟨hkey, h⟩ := h
    rw [Dict.set_of_notMem hkey] at h
    obtain ⟨rfl, hextra⟩ := ih h
    simp only [Dict.keys, List.map_append, List.mem_append, not_or] at hextra
    exact ⟨by simp, List.forall_mem_cons.mpr ⟨hkey, fun k hk => (hextra k hk).1⟩⟩

/-- No line is a list item without a content; a line with trailing white space is refused. -/
def NoEmptyItem (lines : List Line) : Prop := ∀ line ∈ lines, line.content ≠ "- ".toList

/-- Such a line has a content behind its dash. -/
theorem Line.drop_two_ne_nil {line : Line} (hitem : line.isItem = true)
    (h : line.content ≠ "- ".toList) : line.content.drop 2 ≠ [] := by
  obtain ⟨tail, htail⟩ := List.isPrefixOf_iff_prefix.mp hitem
  rintro hnil
  rw [← htail] at h hnil
  obtain rfl : tail = [] := hnil
  exact h (List.append_nil _)

/-- The end of a list without empty items has none. -/
theorem NoEmptyItem.of_append {front rest : List Line} (h : NoEmptyItem (front ++ rest)) :
    NoEmptyItem rest := fun line hline => h line (List.mem_append_right front hline)

/-- A line that continues a dictionary is read. -/
theorem Parses.head?_entries {indent : ℕ} {entries : Dict Str Value} {front rest : List Line}
    (h : Parses (.entries indent entries) front rest) {line : Line}
    (hline : line ∈ (front ++ rest).head?) (hindent : line.indent = indent)
    (hitem : line.isItem = false) : line ∈ front.head? := by
  cases h with
  | entriesEnd hstop => simp [hstop line hline hindent] at hitem
  | entry => exact hline

/-- A line that continues a list is read. -/
theorem Parses.head?_items {indent : ℕ} {items : List Value} {front rest : List Line}
    (h : Parses (.items indent items) front rest) {line : Line}
    (hline : line ∈ (front ++ rest).head?) (hindent : line.indent = indent)
    (hitem : line.isItem = true) : line ∈ front.head? := by
  cases h with
  | itemsEnd hstop => simp [hstop line hline hindent] at hitem
  | item => exact hline

/-- A block starts at its indentation, with a dash exactly when it is a list. -/
theorem Parses.head?_block {indent : ℕ} {value : Value} {lines following : List Line}
    (h : Parses (.block indent value) lines following) :
    ∃ line ∈ lines.head?, line.indent = indent ∧
      ((∃ entries, value = .map entries ∧ line.isItem = false) ∨
        ∃ items, value = .list items ∧ line.isItem = true) := by
  cases h with
  | map hfirst =>
    obtain ⟨line, hline, hindent, hitem⟩ := hfirst
    exact ⟨line, hline, hindent, .inl ⟨_, rfl, hitem⟩⟩
  | list hfirst =>
    obtain ⟨line, hline, hindent, hitem⟩ := hfirst
    exact ⟨line, hline, hindent, .inr ⟨_, rfl, hitem⟩⟩

/-- What a function that reads a block returns satisfies the grammar. -/
def BlockSound (readBlock : List Line → ℕ → Result (Value × List Line)) : Prop :=
  ∀ {lines indent value rest}, NoEmptyItem lines → readBlock lines indent = .ok (value, rest) →
    ∃ front, lines = front ++ rest ∧ Parses (.block indent value) front rest

/-- What a function that reads the entries of a dictionary adds to it satisfies the grammar. -/
def MapSound (readMap : List Line → ℕ → Dict Str Value → Result (Dict Str Value × List Line)) :
    Prop :=
  ∀ {lines indent result entries rest}, NoEmptyItem lines →
    readMap lines indent result = .ok (entries, rest) →
      ∃ front added, lines = front ++ rest ∧ entries = result ++ added ∧
        (∀ key ∈ Dict.keys added, key ∉ result.keys) ∧ Parses (.entries indent added) front rest

/-- What a function that reads the items of a list adds to it satisfies the grammar. -/
def ListSound (readList : List Line → ℕ → List Value → Result (List Value × List Line)) : Prop :=
  ∀ {lines indent result items rest}, NoEmptyItem lines →
    readList lines indent result = .ok (items, rest) →
      ∃ front added, lines = front ++ rest ∧ items = result ++ added ∧
        Parses (.items indent added) front rest

/-- The value of a key that opens no block scalar satisfies the grammar. -/
theorem keyValue_sound {readBlock : List Line → ℕ → Result (Value × List Line)}
    (hblock : BlockSound readBlock) {raw : Str} {lines rest : List Line} {indent : ℕ}
    {value : Value} (hlines : NoEmptyItem lines) (hraw : raw ∉ blockIndicators)
    (h : keyValue readBlock raw lines indent = .ok (value, rest)) :
    ∃ front, lines = front ++ rest ∧ Parses (.value raw indent value) front rest := by
  unfold keyValue at h
  by_cases hne : raw ≠ []
  · rw [if_pos hne] at h
    obtain ⟨scalarValue, hscalar, hpair⟩ := bind_eq_ok_iff.mp h
    obtain ⟨rfl, rfl⟩ := Prod.mk.inj (Except.ok.inj hpair)
    exact ⟨[], rfl, .scalar hraw hne hscalar⟩
  · rw [if_neg hne] at h
    obtain rfl := not_not.mp hne
    cases lines with
    | nil =>
      obtain ⟨rfl, rfl⟩ := Prod.mk.inj (Except.ok.inj h)
      exact ⟨[], rfl, .empty (by simp [Shallow])⟩
    | cons line lines =>
      dsimp only at h
      by_cases hdeeper : indent < line.indent
      · rw [if_pos hdeeper] at h
        obtain ⟨front, hfront, hparses⟩ := hblock hlines h
        exact ⟨front, hfront, .nested hdeeper hparses⟩
      · rw [if_neg hdeeper] at h
        obtain ⟨rfl, rfl⟩ := Prod.mk.inj (Except.ok.inj h)
        exact ⟨[], rfl, .empty (by simpa [Shallow] using hdeeper)⟩

/-- The value of a key satisfies the grammar. -/
theorem entryValue_sound {readBlock : List Line → ℕ → Result (Value × List Line)}
    (hblock : BlockSound readBlock) {raw : Str} {lines rest : List Line} {indent : ℕ}
    {value : Value} (hlines : NoEmptyItem lines)
    (h : entryValue readBlock raw lines indent = .ok (value, rest)) :
    ∃ front, lines = front ++ rest ∧ Parses (.value raw indent value) front rest := by
  rw [entryValue] at h
  by_cases hraw : raw ∈ blockIndicators
  · rw [if_pos hraw, reject, guard_eq_ok_iff] at h
    obtain ⟨hfolded, h⟩ := h
    obtain ⟨⟨contents, rest'⟩, hbody, h⟩ := bind_eq_ok_iff.mp h
    obtain ⟨rfl, rfl⟩ := Prod.mk.inj (Except.ok.inj h)
    obtain ⟨body, rfl, rfl, hall, hstop⟩ := blockLines_eq_ok hbody
    exact ⟨body, rfl, .text hraw hfolded hall hstop⟩
  · rw [if_neg hraw] at h
    exact keyValue_sound hblock hlines hraw h

/-- The further entries of a list item satisfy the grammar. -/
theorem extraEntries_sound
    {readMap : List Line → ℕ → Dict Str Value → Result (Dict Str Value × List Line)}
    (hmap : MapSound readMap) {lines rest : List Line} {indent : ℕ} {entries : Dict Str Value}
    (hlines : NoEmptyItem lines)
    (h : extraEntries (readMap · · []) lines indent = .ok (entries, rest)) :
    ∃ front, lines = front ++ rest ∧ Parses (.extra indent entries) front rest := by
  cases lines with
  | nil =>
    obtain ⟨rfl, rfl⟩ := Prod.mk.inj (Except.ok.inj h)
    exact ⟨[], rfl, .extraEnd (by simp [Shallow])⟩
  | cons line lines =>
    rw [extraEntries] at h
    by_cases hdeeper : indent < line.indent
    · rw [if_pos hdeeper] at h
      obtain ⟨front, added, hfront, rfl, -, hparses⟩ := hmap hlines h
      have hfirst : line ∈ (front ++ rest).head? := hfront ▸ rfl
      exact ⟨front, hfront, .extra hfirst hdeeper hparses⟩
    · rw [if_neg hdeeper] at h
      obtain ⟨rfl, rfl⟩ := Prod.mk.inj (Except.ok.inj h)
      exact ⟨[], rfl, .extraEnd (by simpa [Shallow] using hdeeper)⟩

/-- A block satisfies the grammar when its entries and items do. -/
theorem block_sound {fuel : ℕ} (hmap : MapSound (map fuel)) (hlist : ListSound (list fuel)) :
    BlockSound (block (fuel + 1)) := by
  intro lines indent value rest hlines h
  cases lines with
  | nil => simp [block, reject] at h
  | cons line lines =>
    rw [block, reject, guard_eq_ok_iff, not_not] at h
    obtain ⟨hindent, h⟩ := h
    by_cases hitem : line.isItem = true
    · rw [if_pos hitem] at h
      obtain ⟨⟨items, rest'⟩, hitems, hpair⟩ := bind_eq_ok_iff.mp h
      obtain ⟨rfl, rfl⟩ := Prod.mk.inj (Except.ok.inj hpair)
      obtain ⟨front, added, hfront, rfl, hparses⟩ := hlist hlines hitems
      have hhead : line ∈ (front ++ rest').head? := hfront ▸ rfl
      have hfirst := hparses.head?_items hhead hindent hitem
      exact ⟨front, hfront, .list ⟨line, hfirst, hindent, hitem⟩ hparses⟩
    · rw [if_neg hitem] at h
      have hitem : line.isItem = false := by simpa using hitem
      obtain ⟨⟨entries, rest'⟩, hentries, hpair⟩ := bind_eq_ok_iff.mp h
      obtain ⟨rfl, rfl⟩ := Prod.mk.inj (Except.ok.inj hpair)
      obtain ⟨front, added, hfront, rfl, -, hparses⟩ := hmap hlines hentries
      have hhead : line ∈ (front ++ rest').head? := hfront ▸ rfl
      have hfirst := hparses.head?_entries hhead hindent hitem
      exact ⟨front, hfront, .map ⟨line, hfirst, hindent, hitem⟩ hparses⟩

/-- The entries of a dictionary satisfy the grammar when its values and further entries do. -/
theorem map_sound {fuel : ℕ} (hblock : BlockSound (block fuel)) (hmap : MapSound (map fuel)) :
    MapSound (map (fuel + 1)) := by
  intro lines indent result entries rest hlines h
  cases lines with
  | nil =>
    obtain ⟨rfl, rfl⟩ := Prod.mk.inj (Except.ok.inj h)
    exact ⟨[], [], rfl, by simp, by simp [Dict.keys], .entriesEnd (by simp)⟩
  | cons line lines =>
    rw [map] at h
    by_cases hstop : line.indent ≠ indent ∨ line.isItem = true
    · rw [if_pos hstop] at h
      obtain ⟨rfl, rfl⟩ := Prod.mk.inj (Except.ok.inj h)
      refine ⟨[], [], rfl, by simp, by simp [Dict.keys], .entriesEnd ?_⟩
      simpa [or_iff_not_imp_left] using hstop
    · rw [if_neg hstop] at h
      obtain ⟨hindent, hitem⟩ := not_or.mp hstop
      obtain ⟨⟨key, raw⟩, hsplit, hentry⟩ := bind_eq_ok_iff.mp h
      dsimp only at hentry
      rw [rejectKey, guard_eq_ok_iff] at hentry
      obtain ⟨hkey, hvalue⟩ := hentry
      obtain ⟨⟨child, lines'⟩, hchild, hloop⟩ := bind_eq_ok_iff.mp hvalue
      dsimp only at hloop
      obtain ⟨-, htail⟩ := List.forall_mem_cons.mp hlines
      obtain ⟨below, rfl, hbelow⟩ := entryValue_sound hblock htail hchild
      rw [Dict.set_of_notMem hkey] at hloop
      obtain ⟨front, added, rfl, rfl, hadded, hentries⟩ := hmap (NoEmptyItem.of_append htail) hloop
      simp only [Dict.keys, List.map_append, List.mem_append, not_or, List.map_cons, List.map_nil,
        List.mem_singleton] at hadded
      refine ⟨line :: (below ++ front), (key, child) :: added, by simp, by simp, ?_, ?_⟩
      · exact List.forall_mem_cons.mpr ⟨hkey, fun k hk => (hadded k hk).1⟩
      · exact .entry (not_not.mp hindent) (by simpa using hitem) hsplit
          (fun hmem => (hadded key hmem).2 rfl) hbelow hentries

/-- The items of a list satisfy the grammar when their values and further entries do. -/
theorem list_sound {fuel : ℕ} (hblock : BlockSound (block fuel)) (hmap : MapSound (map fuel))
    (hlist : ListSound (list fuel)) : ListSound (list (fuel + 1)) := by
  intro lines indent result items rest hlines h
  cases lines with
  | nil =>
    obtain ⟨rfl, rfl⟩ := Prod.mk.inj (Except.ok.inj h)
    exact ⟨[], [], rfl, by simp, .itemsEnd (by simp)⟩
  | cons line lines =>
    obtain ⟨hline, htail⟩ := List.forall_mem_cons.mp hlines
    rw [list] at h
    by_cases hstop : line.indent ≠ indent ∨ ¬line.isItem = true
    · rw [if_pos hstop] at h
      obtain ⟨rfl, rfl⟩ := Prod.mk.inj (Except.ok.inj h)
      refine ⟨[], [], rfl, by simp, .itemsEnd ?_⟩
      simpa [or_iff_not_imp_left] using hstop
    · rw [if_neg hstop] at h
      obtain ⟨hindent, hitem⟩ := not_or.mp hstop
      have hitem : line.isItem = true := not_not.mp hitem
      rw [if_neg (Line.drop_two_ne_nil hitem hline)] at h
      obtain ⟨⟨key, raw⟩, hsplit, hkey⟩ := bind_eq_ok_iff.mp h
      dsimp only at hkey
      rw [reject, reject, guard_eq_ok_iff, guard_eq_ok_iff, not_or] at hkey
      obtain ⟨⟨-, hdash⟩, hraw, hvalue⟩ := hkey
      obtain ⟨⟨child, lines'⟩, hchild, hmore⟩ := bind_eq_ok_iff.mp hvalue
      obtain ⟨⟨extra, lines''⟩, hextra, hadd⟩ := bind_eq_ok_iff.mp hmore
      obtain ⟨item, hitem', hloop⟩ := bind_eq_ok_iff.mp hadd
      dsimp only at hextra hitem' hloop
      obtain ⟨below, rfl, hbelow⟩ := keyValue_sound hblock htail hraw hchild
      have htail' : NoEmptyItem lines' := NoEmptyItem.of_append htail
      obtain ⟨more, rfl, hentries⟩ := extraEntries_sound hmap htail' hextra
      obtain ⟨rfl, hkeys⟩ := addExtra_eq_ok hitem'
      obtain ⟨front, added, rfl, rfl, hitems⟩ := hlist (NoEmptyItem.of_append htail') hloop
      refine ⟨line :: (below ++ (more ++ front)), .map ((key, child) :: extra) :: added, by simp,
        by simp, ?_⟩
      exact .item (not_not.mp hindent) hitem hsplit hdash hraw
        (fun hmem => hkeys key hmem (by simp [Dict.keys])) hbelow hentries hitems

/-- At every amount of fuel the three functions satisfy the grammar. -/
theorem parser_sound (fuel : ℕ) :
    BlockSound (block fuel) ∧ MapSound (map fuel) ∧ ListSound (list fuel) := by
  induction fuel with
  | zero =>
    refine ⟨?_, ?_, ?_⟩
    · intro lines indent value rest _ h
      simp [block] at h
    · intro lines indent result entries rest _ h
      simp [map] at h
    · intro lines indent result items rest _ h
      simp [list] at h
  | succ fuel ih =>
    obtain ⟨hblock, hmap, hlist⟩ := ih
    exact ⟨block_sound hmap hlist, map_sound hblock hmap, list_sound hblock hmap hlist⟩

/-- A parsed value is what the grammar makes of all the lines. -/
theorem Parser.parses_of_parse {p : Parser} {value : Value} (hlines : NoEmptyItem p.lines)
    (h : p.parse = .ok value) :
    Parses (.block (p.lines.head p.nonempty).indent value) p.lines [] := by
  obtain ⟨⟨result, rest⟩, hblock, hrest⟩ := bind_eq_ok_iff.mp h
  dsimp only at hrest
  rw [reject, guard_eq_ok_iff, not_not] at hrest
  obtain ⟨rfl, hvalue⟩ := hrest
  obtain rfl := Except.ok.inj hvalue
  obtain ⟨front, hfront, hparses⟩ := (parser_sound _).1 hlines hblock
  rw [List.append_nil] at hfront
  rwa [← hfront] at hparses

end RealityCore.Workflow
