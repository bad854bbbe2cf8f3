import RealityCore.Workflow.Placement

/-!
# What follows a stretch

The first lines of a stretch show what it is read as, and every loop of the parser stops at the
first line that does not fit. Hence a line behind keys that follow their columns belongs to none of
their maps, unless it is a list item.
-/

namespace RealityCore.Workflow

open Python (Str)

/-- The entries of a dictionary start in its column, without a dash. -/
theorem Lays.entries_first {indent : ℕ} {key : LocatedKey} {keys : List LocatedKey}
    {following : List Line} (h : Lays (.entries indent) (key :: keys) following) :
    key.path.map = [] ∧ key.line.isItem = false ∧ key.line.column = indent := by
  cases h with
  | entry hindent hitem => exact ⟨rfl, hitem, hindent ▸ Line.column_of_not_isItem hitem⟩

/-- The further entries of a list item start deeper than the item, without a dash. -/
theorem Lays.extra_first {indent : ℕ} {key : LocatedKey} {keys : List LocatedKey}
    {following : List Line} (h : Lays (.extra indent) (key :: keys) following) :
    key.path.map = [] ∧ key.line.isItem = false ∧ indent < key.line.column := by
  cases h with
  | extra _ hdeeper hentries =>
    obtain ⟨hmap, hitem, hcolumn⟩ := hentries.entries_first
    exact ⟨hmap, hitem, hcolumn ▸ hdeeper⟩

/-- The items of a list start two columns right of their dash. -/
theorem Lays.items_first {indent index : ℕ} {key : LocatedKey} {keys : List LocatedKey}
    {following : List Line} (h : Lays (.items indent index) (key :: keys) following) :
    key.line.column = indent + 2 := by
  generalize hall : key :: keys = all at h
  cases h with
  | itemsEnd => exact absurd hall (List.cons_ne_nil _ _)
  | item hindent hitem =>
    obtain ⟨rfl, -⟩ := List.cons.inj hall
    exact hindent ▸ Line.column_of_isItem hitem

/-- A key without a value has no deeper line below it. -/
theorem Lays.value_nil {bare : Bool} {indent : ℕ} {following : List Line}
    (h : Lays (.value bare indent) [] following) (hbare : bare = true) :
    Shallow indent following := by
  cases h with
  | leaf hstop => exact hstop hbare
  | nested _ hblock => cases hblock <;> contradiction

/-- A list item without further entries is not followed by a deeper key line without a dash. -/
theorem Lays.extra_nil {indent : ℕ} {following : List Line}
    (h : Lays (.extra indent) [] following) {line : Line} (hline : line ∈ following.head?)
    (hitem : line.isItem = false) : line.indent ≤ indent := by
  cases h with
  | extraEnd hstop => exact hstop line hline
  | extra hfirst _ hentries =>
    obtain rfl := Option.some.inj (hline.symm.trans hfirst)
    cases hentries with
    | entriesEnd hstop => exact absurd (hstop _ hline rfl) (by simp [hitem])

/-- The entries of a dictionary that follow the columns are closed by the line after them. -/
theorem Ended.entry {indent : ℕ} {line next : Line} {below keys : List LocatedKey}
    {following : List Line} (hline : line.column = indent)
    (hdeeper : ∀ key ∈ below, indent < key.line.column)
    (hvalue : Lays (.value line.bare line.indent) below (keys.map LocatedKey.line ++ following))
    (hentries : Lays (.entries indent) keys following) (hnext : next ∈ following.head?)
    (hitem : next.isItem = false)
    (hbelow : keys = [] → Ended (below.map LocatedKey.line) next)
    (hkeys : Ended (keys.map LocatedKey.line) next) :
    Ended (line :: (below.map LocatedKey.line ++ keys.map LocatedKey.line)) next := by
  have hcolumn := Line.column_of_not_isItem hitem
  cases keys with
  | nil =>
    rw [List.map_nil, List.append_nil]
    refine (hbelow rfl).cons ?_ fun hnil hbare => ?_
    · cases hentries with
      | entriesEnd hstop =>
        intro heq
        have := hstop next hnext (by omega)
        simp [hitem] at this
    · obtain rfl := List.map_eq_nil_iff.mp hnil
      have hle := hvalue.value_nil hbare next hnext
      have : line.indent ≤ line.column := by
        rw [Line.column]
        split <;> omega
      omega
  | cons key keys =>
    have hfirst := hentries.entries_first.2.2
    rw [← List.cons_append]
    refine Ended.append hkeys (by simp) ?_
    have hkey : key.line ∈ (key :: keys).map LocatedKey.line := by simp
    refine List.forall_mem_cons.mpr ⟨⟨key.line, hkey, by omega⟩, ?_⟩
    refine List.forall_mem_map.mpr fun inner hinner => ⟨key.line, hkey, ?_⟩
    have := hdeeper inner hinner
    omega

/-- A list item that follows the columns is closed by the line after it. -/
theorem Ended.item {indent : ℕ} {line next : Line} {below extra : List LocatedKey}
    {following : List Line} (hindent : line.indent = indent) (hline : line.isItem = true)
    (hdeeper : ∀ key ∈ below, line.column < key.line.column)
    (hsame : ∀ key ∈ extra, key.path.map = [] → key.line.column = line.column)
    (hextra : Lays (.extra indent) extra following) (hnext : next ∈ following.head?)
    (hitem : next.isItem = false)
    (hbelow : extra = [] → Ended (below.map LocatedKey.line) next)
    (hmore : Ended (extra.map LocatedKey.line) next) :
    Ended (line :: (below.map LocatedKey.line ++ extra.map LocatedKey.line)) next := by
  cases extra with
  | nil =>
    have hle := hextra.extra_nil hnext hitem
    have hcolumn := Line.column_of_not_isItem hitem
    have hdash := Line.column_of_isItem hline
    rw [List.map_nil, List.append_nil]
    exact (hbelow rfl).cons (by omega) fun _ _ => by omega
  | cons key extra =>
    have hfirst := hsame key List.mem_cons_self hextra.extra_first.1
    have hkey : key.line ∈ (key :: extra).map LocatedKey.line := by simp
    rw [← List.cons_append]
    refine Ended.append hmore (by simp) ?_
    refine List.forall_mem_cons.mpr ⟨⟨key.line, hkey, hfirst.le⟩, ?_⟩
    refine List.forall_mem_map.mpr fun inner hinner => ⟨key.line, hkey, ?_⟩
    have := hdeeper inner hinner
    omega

/-- The lines of an entry and of the entries after it. -/
theorem map_line_entry (name : Str) (line : Line) (below keys : List LocatedKey) :
    (⟨⟨[], name⟩, line⟩ :: (below.map (LocatedKey.under (.key name)) ++ keys)).map LocatedKey.line =
      line :: (below.map LocatedKey.line ++ keys.map LocatedKey.line) := by
  rw [List.map_cons, List.map_append, map_line_under]

/-- Keys that follow their columns are closed by a following line without a dash: it neither opens
one of their values nor continues one of their maps. -/
theorem Lays.ended {shape : Shape} {keys : List LocatedKey} {following : List Line}
    (h : Lays shape keys following) (heven : ∀ key ∈ keys, key.line.column % 2 = 0)
    (hcolumns : FollowsColumns keys) {next : Line} (hnext : next ∈ following.head?)
    (hitem : next.isItem = false) : Ended (keys.map LocatedKey.line) next := by
  induction h with
  | map _ _ ih => exact ih heven hcolumns hnext
  | list _ _ ih => exact ih heven hcolumns hnext
  | leaf | entriesEnd | itemsEnd | extraEnd => exact .nil next
  | nested _ _ ih => exact ih heven hcolumns hnext
  | extra _ _ _ ih => exact ih heven hcolumns hnext
  | @entry indent name line below keys following hindent hline hvalue hentries hname ihvalue
      ihentries =>
    obtain ⟨⟨hbelow, hdeeper⟩, hkeys, -⟩ := (followsColumns_entry_iff hname).mp hcolumns
    obtain ⟨hinner, hrest⟩ := List.forall_mem_append.mp (List.forall_mem_cons.mp heven).2
    have hcolumn := hindent ▸ Line.column_of_not_isItem hline
    rw [map_line_entry]
    refine Ended.entry hcolumn (hcolumn ▸ hdeeper) (hindent ▸ hvalue) hentries hnext hitem ?_
      (ihentries hrest hkeys hnext)
    rintro rfl
    exact ihvalue (List.forall_mem_map.mp hinner) hbelow hnext
  | @item indent index name line below extra keys following hindent hline hvalue hextra hname
      hitems hindex ihvalue ihextra ihitems =>
    have hbounds := (Lays.item hindent hline hvalue hextra hname hitems hindex).bounds heven
    obtain ⟨hfirst, hkeys⟩ := (followsColumns_item_iff hindex).mp hcolumns
    obtain ⟨⟨hbelow, hdeeper⟩, hmore, hsame⟩ := (followsColumns_entry_iff hname).mp hfirst
    obtain ⟨hfirst, hrest⟩ := List.forall_mem_append.mp heven
    obtain ⟨-, hfirst⟩ := List.forall_mem_cons.mp (List.forall_mem_map.mp hfirst)
    have hinner := List.forall_mem_append.mp hfirst
    rw [List.map_append, map_line_under, map_line_entry]
    cases keys with
    | nil =>
      rw [List.map_nil, List.append_nil]
      refine Ended.item hindent hline hdeeper hsame hextra hnext hitem ?_
        (ihextra hinner.2 hmore hnext)
      rintro rfl
      exact ihvalue (List.forall_mem_map.mp hinner.1) hbelow hnext
    | cons key keys =>
      refine (ihitems hrest hkeys hnext).append (by simp) ?_
      rw [← map_line_entry name, List.forall_mem_map]
      refine fun inner hmem => ⟨key.line, by simp, ?_⟩
      rw [hitems.items_first]
      exact hbounds (inner.under (.item index)) (List.mem_append_left _ (List.mem_map_of_mem hmem))

end RealityCore.Workflow
