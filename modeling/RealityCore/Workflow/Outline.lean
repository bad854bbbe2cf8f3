import RealityCore.Workflow.KeyPaths

/-!
# The outline of a workflow

The keys of a parsed value stand on the key lines of the text. What the parser decides about them
depends on the key lines alone: the grammar without the lines of block scalars relates them to the
keys.
-/

namespace RealityCore.Workflow

open Python (Str Dict)

/-- What a stretch of key lines is read as. -/
inductive Shape where
  | block (indent : ℕ)
  | value (bare : Bool) (indent : ℕ)
  | entries (indent : ℕ)
  | items (indent index : ℕ)
  | extra (indent : ℕ)

/-- The grammar on key lines: the keys of a segment with their lines, in front of other lines. -/
inductive Lays : Shape → List LocatedKey → List Line → Prop
  | map {indent keys following} (hne : keys ≠ [])
      (hentries : Lays (.entries indent) keys following) : Lays (.block indent) keys following
  | list {indent keys following} (hne : keys ≠ [])
      (hitems : Lays (.items indent 0) keys following) : Lays (.block indent) keys following
  | leaf {bare indent following} (hstop : bare = true → Shallow indent following) :
      Lays (.value bare indent) [] following
  | nested {indent below keys following} (hdeeper : indent < below)
      (hblock : Lays (.block below) keys following) : Lays (.value true indent) keys following
  | entriesEnd {indent following}
      (hstop : ∀ line ∈ following.head?, line.indent = indent → line.isItem = true) :
      Lays (.entries indent) [] following
  | entry {indent name line below keys following} (hindent : line.indent = indent)
      (hitem : line.isItem = false)
      (hvalue : Lays (.value line.bare indent) below (keys.map LocatedKey.line ++ following))
      (hentries : Lays (.entries indent) keys following)
      (hname : ∀ key ∈ keys, key.path.first ≠ .key name) :
      Lays (.entries indent) (⟨⟨[], name⟩, line⟩ :: (below.map (.under (.key name)) ++ keys))
        following
  | itemsEnd {indent index following} : Lays (.items indent index) [] following
  | item {indent index name line below extra keys following} (hindent : line.indent = indent)
      (hitem : line.isItem = true)
      (hvalue : Lays (.value line.bare indent) below
        (extra.map LocatedKey.line ++ (keys.map LocatedKey.line ++ following)))
      (hextra : Lays (.extra indent) extra (keys.map LocatedKey.line ++ following))
      (hname : ∀ key ∈ extra, key.path.first ≠ .key name)
      (hitems : Lays (.items indent (index + 1)) keys following)
      (hindex : ∀ key ∈ keys, key.path.map ≠ [] ∧ key.path.first ≠ .item index) :
      Lays (.items indent index)
        ((⟨⟨[], name⟩, line⟩ :: (below.map (.under (.key name)) ++ extra)).map
          (.under (.item index)) ++ keys) following
  | extraEnd {indent following} (hstop : Shallow indent following) :
      Lays (.extra indent) [] following
  | extra {indent line keys following}
      (hfirst : line ∈ (keys.map LocatedKey.line ++ following).head?)
      (hdeeper : indent < line.indent) (hentries : Lays (.entries line.indent) keys following) :
      Lays (.extra indent) keys following

/-! ## The keys of an accepted text -/

/-- The line of the key holds its name. -/
def LocatedKey.Named (key : LocatedKey) : Prop :=
  ∃ raw, splitMapping key.line.keyText = .ok (key.path.key, raw)

/-- The keys of some paths, on the key lines of a stretch in front of other lines. -/
structure Locates (paths : List KeyPath) (opened : Option ℕ) (lines following : List Line)
    (keys : List LocatedKey) : Prop where
  paths : keys.map LocatedKey.path = paths
  lines : keyLines opened (lines ++ following) = keys.map LocatedKey.line ++ keyLines none following
  named : ∀ key ∈ keys, key.Named

/-- Nothing is located between two lines outside of block scalars. -/
theorem Locates.nil (following : List Line) : Locates [] none [] following [] :=
  ⟨rfl, rfl, by simp⟩

/-- Seen from a value that holds the present one, the keys stand on the same lines. -/
theorem map_line_under (step : PathStep) (keys : List LocatedKey) :
    (keys.map (LocatedKey.under step)).map LocatedKey.line = keys.map LocatedKey.line := by
  rw [List.map_map]
  rfl

/-- Seen from a value that holds the present one, the ways are one step longer. -/
theorem map_path_under (step : PathStep) (keys : List LocatedKey) :
    (keys.map (LocatedKey.under step)).map LocatedKey.path =
      (keys.map LocatedKey.path).map (KeyPath.under step) := by
  rw [List.map_map, List.map_map]
  rfl

/-- Seen from a value that holds the present one, the keys stay where they are. -/
theorem Locates.under {paths : List KeyPath} {opened : Option ℕ} {lines following : List Line}
    {keys : List LocatedKey} (h : Locates paths opened lines following keys) (step : PathStep) :
    Locates (paths.map (.under step)) opened lines following (keys.map (.under step)) :=
  ⟨by rw [map_path_under, h.paths], by rw [map_line_under, h.lines],
    List.forall_mem_map.mpr h.named⟩

/-- The keys of two stretches stand one after the other. -/
theorem Locates.append {paths paths' : List KeyPath} {opened : Option ℕ}
    {lines lines' following : List Line} {keys keys' : List LocatedKey}
    (h : Locates paths opened lines (lines' ++ following) keys)
    (h' : Locates paths' none lines' following keys') :
    Locates (paths ++ paths') opened (lines ++ lines') following (keys ++ keys') :=
  ⟨by rw [List.map_append, h.paths, h'.paths],
    by rw [List.append_assoc, h.lines, h'.lines, List.map_append, List.append_assoc],
    List.forall_mem_append.mpr ⟨h.named, h'.named⟩⟩

/-- A key line stands in front of the keys of its value. -/
theorem Locates.key {paths : List KeyPath} {line : Line} {key raw : Str}
    {lines following : List Line} {keys : List LocatedKey}
    (hsplit : splitMapping line.keyText = .ok (key, raw))
    (h : Locates paths (openedBy raw line.indent) lines following keys) :
    Locates (⟨[], key⟩ :: paths) none (line :: lines) following (⟨⟨[], key⟩, line⟩ :: keys) :=
  ⟨by rw [List.map_cons, h.paths],
    by rw [List.cons_append, keyLines_key hsplit, h.lines, List.map_cons, List.cons_append],
    List.forall_mem_cons.mpr ⟨⟨raw, hsplit⟩, h.named⟩⟩

/-- The keys of a segment are laid out on its key lines. -/
def Outlined : Segment → List Line → List Line → Prop
  | .block indent value, lines, following => ∃ keys,
      Locates (keyPaths value) none lines following keys ∧
        Lays (.block indent) keys (keyLines none following)
  | .value raw indent value, lines, following => ∃ keys,
      Locates (keyPaths value) (openedBy raw indent) lines following keys ∧
        Lays (.value (raw == []) indent) keys (keyLines none following)
  | .entries indent entries, lines, following => ∃ keys,
      Locates (entryPaths entries) none lines following keys ∧
        Lays (.entries indent) keys (keyLines none following)
  | .items indent items, lines, following => ∀ index, ∃ keys,
      Locates (itemPaths index items) none lines following keys ∧
        Lays (.items indent index) keys (keyLines none following)
  | .extra indent entries, lines, following => ∃ keys,
      Locates (entryPaths entries) none lines following keys ∧
        Lays (.extra indent) keys (keyLines none following)

/-- A plain scalar holds no keys. -/
theorem keyPaths_scalar {raw : Str} {value : Value} (h : scalar raw = .ok value) :
    keyPaths value = [] := by
  rcases scalar_eq_ok h with ⟨-, rfl⟩ | ⟨-, rfl⟩ | ⟨-, rfl⟩ | ⟨-, rfl⟩ | ⟨-, rfl⟩ <;> rfl

/-- One entry and the entries after it are laid out. -/
theorem Outlined.entry {indent : ℕ} {key raw : Str} {value : Value} {entries : Dict Str Value}
    {line : Line} {below lines following : List Line} (hindent : line.indent = indent)
    (hitem : line.isItem = false) (hsplit : splitMapping line.content = .ok (key, raw))
    (hkey : key ∉ entries.keys)
    (hvalue : Outlined (.value raw indent value) below (lines ++ following))
    (hentries : Outlined (.entries indent entries) lines following) :
    Outlined (.entries indent ((key, value) :: entries)) (line :: (below ++ lines)) following := by
  obtain ⟨inner, hinner, hlays⟩ := hvalue
  obtain ⟨keys, hkeys, hrest⟩ := hentries
  rw [← Line.keyText_of_not_isItem hitem] at hsplit
  rw [hkeys.lines, ← Line.bare_eq hsplit] at hlays
  rw [← hindent] at hinner
  refine ⟨_, ((hinner.under (.key key)).key hsplit).append hkeys, ?_⟩
  refine .entry hindent hitem hlays hrest fun other hother => ?_
  exact first_ne_of_notMem hkey (hkeys.paths ▸ List.mem_map_of_mem hother)

/-- One item and the items after it are laid out. -/
theorem Outlined.item {indent : ℕ} {key raw : Str} {value : Value} {entries : Dict Str Value}
    {items : List Value} {line : Line} {below extra lines following : List Line}
    (hindent : line.indent = indent) (hitem : line.isItem = true)
    (hsplit : splitMapping (line.content.drop 2) = .ok (key, raw)) (hkey : key ∉ entries.keys)
    (hvalue : Outlined (.value raw indent value) below (extra ++ (lines ++ following)))
    (hextra : Outlined (.extra indent entries) extra (lines ++ following))
    (hitems : Outlined (.items indent items) lines following) :
    Outlined (.items indent (.map ((key, value) :: entries) :: items))
      (line :: (below ++ (extra ++ lines))) following := by
  intro index
  obtain ⟨inner, hinner, hlays⟩ := hvalue
  obtain ⟨more, hmore, hrest⟩ := hextra
  obtain ⟨keys, hkeys, hothers⟩ := hitems (index + 1)
  rw [← Line.keyText_of_isItem hitem] at hsplit
  rw [hmore.lines, hkeys.lines, ← Line.bare_eq hsplit] at hlays
  rw [hkeys.lines] at hrest
  rw [← hindent] at hinner
  have hentries := ((hinner.under (.key key)).key hsplit).append hmore
  rw [← List.append_assoc, ← List.cons_append, ← List.cons_append]
  refine ⟨_, (hentries.under (.item index)).append hkeys, ?_⟩
  refine .item hindent hitem hlays hrest (fun other hother => ?_) hothers fun other hother => ?_
  · exact first_ne_of_notMem hkey (hmore.paths ▸ List.mem_map_of_mem hother)
  · have hmem : other.path ∈ itemPaths (index + 1) items := hkeys.paths ▸ List.mem_map_of_mem hother
    obtain ⟨hmap, position, hposition, hfirst⟩ := first_of_mem_itemPaths hmem
    refine ⟨hmap, fun heq => ?_⟩
    rw [heq] at hfirst
    have := PathStep.item.inj hfirst
    omega

/-- The keys of every segment are laid out on its key lines. -/
theorem Parses.outlined {segment : Segment} {lines following : List Line}
    (h : Parses segment lines following) : Outlined segment lines following := by
  induction h with
  | map hfirst hentries ih =>
    obtain ⟨keys, hkeys, hlays⟩ := ih
    refine ⟨keys, hkeys, .map ?_ hlays⟩
    rintro rfl
    cases hentries with
    | entriesEnd => simp at hfirst
    | entry => exact absurd hkeys.paths (by simp [entryPaths])
  | list hfirst hitems ih =>
    obtain ⟨keys, hkeys, hlays⟩ := ih 0
    refine ⟨keys, hkeys, .list ?_ hlays⟩
    rintro rfl
    cases hitems with
    | itemsEnd => simp at hfirst
    | item => exact absurd hkeys.paths (by simp [itemPaths, keyPaths, entryPaths])
  | @text indent raw body following hraw _ hbody hstop =>
    have hdeeper : ∀ line ∈ body, indent < line.indent := fun line hline => by
      rw [hbody line hline]
      omega
    refine ⟨[], ⟨rfl, ?_, by simp⟩, .leaf fun hbare => ?_⟩
    · rw [openedBy, if_pos hraw, keyLines_deeper hdeeper, keyLines_shallow hstop]
      rfl
    · rw [eq_of_beq hbare] at hraw
      exact absurd hraw (by decide)
  | scalar hraw hne hscalar =>
    refine ⟨[], ⟨(keyPaths_scalar hscalar).symm, ?_, by simp⟩, .leaf fun hbare => ?_⟩
    · rw [openedBy_of_notMem hraw]
      rfl
    · exact absurd (eq_of_beq hbare) hne
  | empty hstop =>
    refine ⟨[], .nil _, .leaf fun _ => ?_⟩
    rwa [Shallow, head?_keyLines]
  | nested hdeeper _ ih =>
    obtain ⟨keys, hkeys, hlays⟩ := ih
    exact ⟨keys, hkeys, .nested hdeeper hlays⟩
  | entriesEnd hstop =>
    refine ⟨[], .nil _, .entriesEnd ?_⟩
    rwa [head?_keyLines]
  | entry hindent hitem hsplit hkey _ _ ihvalue ihentries =>
    exact .entry hindent hitem hsplit hkey ihvalue ihentries
  | itemsEnd => exact fun _ => ⟨[], .nil _, .itemsEnd⟩
  | item hindent hitem hsplit _ _ hkey _ _ _ ihvalue ihextra ihitems =>
    exact .item hindent hitem hsplit hkey ihvalue ihextra ihitems
  | extraEnd hstop =>
    refine ⟨[], .nil _, .extraEnd ?_⟩
    rwa [Shallow, head?_keyLines]
  | extra hfirst hdeeper _ ih =>
    obtain ⟨keys, hkeys, hlays⟩ := ih
    refine ⟨keys, hkeys, .extra ?_ hdeeper hlays⟩
    rwa [← hkeys.lines, head?_keyLines]

/-- The keys of a value in document order, on the key lines of the parser object. -/
def locatedKeys (p : Parser) (value : Value) : List LocatedKey :=
  List.zipWith .mk (keyPaths value) (keyLines none p.lines)

/-- Each key of a parsed value has a line that holds its name, each key line has a key, and together
they satisfy the grammar of key lines. -/
theorem locatedKeys_of_parse {p : Parser} {value : Value} (hlines : NoEmptyItem p.lines)
    (h : p.parse = .ok value) :
    (locatedKeys p value).map LocatedKey.path = keyPaths value ∧
      (locatedKeys p value).map LocatedKey.line = keyLines none p.lines ∧
      (∀ key ∈ locatedKeys p value, key.Named) ∧
      Lays (.block (p.lines.head p.nonempty).indent) (locatedKeys p value) [] := by
  obtain ⟨keys, hkeys, hlays⟩ := (Parser.parses_of_parse hlines h).outlined
  have hall := hkeys.lines
  rw [List.append_nil] at hall
  have hall : keyLines none p.lines = keys.map LocatedKey.line := by
    simpa [keyLines, marked] using hall
  have heq : locatedKeys p value = keys := by
    rw [locatedKeys, hall, ← hkeys.paths, List.zipWith_map, List.zipWith_self, List.map_id'']
    exact fun key => rfl
  rw [heq]
  exact ⟨hkeys.paths, hall.symm, hkeys.named, hlays⟩

end RealityCore.Workflow
