import RealityCore.Workflow.Ended

/-!
# The nesting of an accepted text

The parser nests a key by the indentation of its line, and a list item accepts any deeper lines as
its value and as its further entries. The nesting follows the columns exactly when every key line
that is not a list item fits the key lines before it.
-/

namespace RealityCore.Workflow

open Python (Str)

/-! ## Placed lines follow their columns -/

/-- The value of a list item stands right of its key when its first line fits. -/
theorem Lays.deeper_of_placed {line : Line} {below : List LocatedKey} {before following : List Line}
    (h : Lays (.value line.bare line.indent) below following) (hline : line.isItem = true)
    (hlineEven : line.column % 2 = 0) (heven : ∀ key ∈ below, key.line.column % 2 = 0)
    (hplaced : Placed (line :: before) (below.map LocatedKey.line)) :
    ∀ key ∈ below, line.column < key.line.column := by
  have hcolumn := Line.column_of_isItem hline
  generalize hbare : line.bare = bare at h
  cases h with
  | leaf => exact fun key hkey => absurd hkey List.not_mem_nil
  | @nested _ indent _ _ hdeeper hblock =>
    cases hblock with
    | list _ hitems =>
      intro key hkey
      have hbound : indent + 2 ≤ key.line.column := hitems.bounds heven key hkey
      omega
    | map hne hentries =>
      obtain ⟨key, keys, rfl⟩ := List.exists_cons_of_ne_nil hne
      obtain ⟨-, hitem, hfirst⟩ := hentries.entries_first
      have hfits : line.column < key.line.column := by
        have hkeyEven := heven key List.mem_cons_self
        rcases hplaced.1 hitem with hnil | ⟨last, hlast, -, hlt⟩ | ⟨hstands, hdash⟩
        · exact absurd hnil (List.cons_ne_nil _ _)
        · obtain rfl := Option.some.inj hlast
          exact hlt
        · refine lt_of_le_of_ne (by omega) fun heq => ?_
          exact hdash ⟨line, rfl, hline, hbare, heq⟩
      intro other hother
      have hbound := (hentries.bounds heven other hother).1
      omega

/-- The further entries of a list item stand in the column of its key when the first line fits. -/
theorem Lays.same_of_placed {line : Line} {below extra : List LocatedKey}
    {before following : List Line} (h : Lays (.extra line.indent) extra following)
    (hvalue : Lays (.value line.bare line.indent) below (extra.map LocatedKey.line ++ following))
    (hline : line.isItem = true) (hlineEven : line.column % 2 = 0)
    (hbelowEven : ∀ key ∈ below, key.line.column % 2 = 0)
    (heven : ∀ key ∈ extra, key.line.column % 2 = 0) (hbelow : FollowsColumns below)
    (hplaced : Placed ((below.map LocatedKey.line).reverse ++ line :: before)
      (extra.map LocatedKey.line)) :
    ∀ key ∈ extra, key.path.map = [] → key.line.column = line.column := by
  cases extra with
  | nil => exact fun key hkey => absurd hkey List.not_mem_nil
  | cons key extra =>
    obtain ⟨hmap, hitem, hdeeper⟩ := h.extra_first
    have hcolumn := Line.column_of_isItem hline
    have hkeyColumn := Line.column_of_not_isItem hitem
    have hkeyEven := heven key List.mem_cons_self
    have hbelowEnd := hvalue.ended hbelowEven hbelow rfl hitem
    have hfirst : key.line.column = line.column := by
      rcases hplaced.1 hitem with hnil | ⟨last, hlast, hbare, hlt⟩ | ⟨hstands, -⟩
      · exact absurd hnil (by simp)
      · cases below with
        | nil =>
          obtain rfl := Option.some.inj hlast
          have := hvalue.value_nil hbare key.line rfl
          omega
        | cons inner below =>
          rw [List.head?_append_of_ne_nil _ (by simp)] at hlast
          exact absurd ⟨last, hlast, hbare, hlt⟩ hbelowEnd.2
      · rcases standsAt_append.mp hstands with hnear | ⟨-, hfar⟩
        · exact absurd hnear hbelowEnd.1
        · exact (hfar.column_eq (by omega)).symm
    intro other hother hnil
    cases h with
    | extra _ _ hentries =>
      have hcommon := (hentries.bounds heven other hother).2 hnil
      rw [hcommon, ← hfirst, hentries.entries_first.2.2]

/-- Placed lines follow their columns. -/
theorem Lays.followsColumns {shape : Shape} {keys : List LocatedKey} {following : List Line}
    (h : Lays shape keys following) (heven : ∀ key ∈ keys, key.line.column % 2 = 0)
    {before : List Line} (hplaced : Placed before (keys.map LocatedKey.line)) :
    FollowsColumns keys := by
  induction h generalizing before with
  | map _ _ ih => exact ih heven hplaced
  | list _ _ ih => exact ih heven hplaced
  | leaf | entriesEnd | itemsEnd | extraEnd => exact fun key hkey => absurd hkey List.not_mem_nil
  | nested _ _ ih => exact ih heven hplaced
  | extra _ _ _ ih => exact ih heven hplaced
  | @entry indent name line below keys following hindent hitem hvalue hentries hname ihvalue
      ihentries =>
    have hcolumn := hindent ▸ Line.column_of_not_isItem hitem
    obtain ⟨hinner, hrest⟩ := List.forall_mem_append.mp (List.forall_mem_cons.mp heven).2
    have hinner := List.forall_mem_map.mp hinner
    rw [map_line_entry, Placed, placed_append] at hplaced
    obtain ⟨-, hbelow, hkeys⟩ := hplaced
    refine (followsColumns_entry_iff hname).mpr ⟨⟨ihvalue hinner hbelow, ?_⟩,
      ihentries hrest hkeys, fun key hkey hnil => ?_⟩
    · exact fun key hkey => hcolumn ▸ hvalue.bounds hinner key hkey
    · rw [hcolumn, (hentries.bounds hrest key hkey).2 hnil]
  | @item indent index name line below extra keys following hindent hitem hvalue hextra hname
      hitems hindex ihvalue ihextra ihitems =>
    subst hindent
    obtain ⟨hfirst, hrest⟩ := List.forall_mem_append.mp heven
    obtain ⟨hline, hfirst⟩ := List.forall_mem_cons.mp (List.forall_mem_map.mp hfirst)
    obtain ⟨hinner, hmore⟩ := List.forall_mem_append.mp hfirst
    have hinner := List.forall_mem_map.mp hinner
    rw [List.map_append, map_line_under, map_line_entry, List.cons_append, List.append_assoc,
      Placed, placed_append, placed_append] at hplaced
    obtain ⟨-, hbelow, hextraPlaced, hkeys⟩ := hplaced
    have hvalueColumns := ihvalue hinner hbelow
    refine (followsColumns_item_iff hindex).mpr ⟨(followsColumns_entry_iff hname).mpr ?_,
      ihitems hrest hkeys⟩
    exact ⟨⟨hvalueColumns, hvalue.deeper_of_placed hitem hline hinner hbelow⟩,
      ihextra hmore hextraPlaced,
      hextra.same_of_placed hvalue hitem hline hinner hmore hvalueColumns hextraPlaced⟩

/-! ## Keys that follow their columns are placed -/

/-- What the first line of a stretch needs from the lines before it. -/
def Shape.Context : Shape → List LocatedKey → List Line → Prop
  | .block _, keys, before | .entries _, keys, before | .extra _, keys, before =>
    ∀ key ∈ keys.head?, key.line.isItem = false → Fits before key.line
  | .value bare _, keys, before =>
    ∃ line ∈ before.head?, line.bare = bare ∧ ∀ key ∈ keys, line.column < key.line.column
  | .items _ _, _, _ => True

/-- An entry behind the value of another entry of its map fits. -/
theorem fits_entry {line next : Line} {below : List LocatedKey} {before : List Line}
    (hdeeper : ∀ key ∈ below, line.column < key.line.column) (hcolumn : next.column = line.column)
    (hdash : below = [] → line.isItem = true → line.bare = false) :
    Fits ((below.map LocatedKey.line).reverse ++ line :: before) next := by
  refine .inr (.inr ⟨?_, ?_⟩)
  · rw [hcolumn]
    exact standsAt_of_right (List.forall_mem_map.mpr hdeeper)
  · rintro ⟨last, hlast, hitem, hbare, heq⟩
    cases below with
    | nil =>
      obtain rfl := Option.some.inj hlast
      simp [hdash rfl hitem] at hbare
    | cons key below =>
      rw [List.head?_append_of_ne_nil _ (by simp)] at hlast
      obtain ⟨inner, hinner, rfl⟩ :=
        List.mem_map.mp (List.mem_reverse.mp (List.mem_of_head? hlast))
      have := hdeeper inner hinner
      omega

/-- Keys that follow their columns are placed. -/
theorem Lays.placed {shape : Shape} {keys : List LocatedKey} {following : List Line}
    (h : Lays shape keys following) (hcolumns : FollowsColumns keys) {before : List Line}
    (hcontext : shape.Context keys before) : Placed before (keys.map LocatedKey.line) := by
  induction h generalizing before with
  | map _ _ ih => exact ih hcolumns hcontext
  | list _ _ ih => exact ih hcolumns trivial
  | leaf | entriesEnd | itemsEnd | extraEnd => exact trivial
  | nested _ _ ih =>
    obtain ⟨line, hline, hbare, hdeeper⟩ := hcontext
    refine ih hcolumns fun key hkey _ => .inr (.inl ⟨line, hline, hbare, ?_⟩)
    exact hdeeper key (List.mem_of_head? hkey)
  | extra _ _ _ ih => exact ih hcolumns hcontext
  | @entry indent name line below keys following hindent hitem hvalue hentries hname ihvalue
      ihentries =>
    obtain ⟨⟨hbelow, hdeeper⟩, hkeys, hsame⟩ := (followsColumns_entry_iff hname).mp hcolumns
    rw [map_line_entry, Placed, placed_append]
    refine ⟨hcontext _ rfl, ihvalue hbelow ⟨line, rfl, rfl, hdeeper⟩, ihentries hkeys ?_⟩
    intro key hkey _
    obtain ⟨rest, rfl⟩ := List.head?_eq_some_iff.mp hkey
    have hcolumn := hsame key List.mem_cons_self hentries.entries_first.1
    exact fits_entry hdeeper hcolumn fun _ hdash => absurd hdash (by simp [hitem])
  | @item indent index name line below extra keys following hindent hitem hvalue hextra hname
      hitems hindex ihvalue ihextra ihitems =>
    obtain ⟨hfirst, hkeys⟩ := (followsColumns_item_iff hindex).mp hcolumns
    obtain ⟨⟨hbelow, hdeeper⟩, hmore, hsame⟩ := (followsColumns_entry_iff hname).mp hfirst
    rw [List.map_append, map_line_under, map_line_entry, List.cons_append, List.append_assoc,
      Placed, placed_append, placed_append]
    refine ⟨fun hdash => absurd hdash (by simp [hitem]),
      ihvalue hbelow ⟨line, rfl, rfl, hdeeper⟩, ihextra hmore ?_, ihitems hkeys trivial⟩
    intro key hkey _
    obtain ⟨rest, rfl⟩ := List.head?_eq_some_iff.mp hkey
    obtain ⟨hmap, hplain, hright⟩ := hextra.extra_first
    refine fits_entry hdeeper (hsame key List.mem_cons_self hmap) fun hnil _ => ?_
    subst hnil
    by_contra hbare
    have hle := hvalue.value_nil (by simpa using hbare) key.line rfl
    rw [Line.column_of_not_isItem hplain] at hright
    omega

/-! ## The parsed value -/

/-- The nesting of the keys of an accepted text follows their columns exactly when every key line
that is not a list item fits the key lines before it. -/
theorem followsColumns_iff_placed (text : Str) (p : Parser) (value : Value)
    (hinit : Parser.init text = .ok p) (hparse : p.parse = .ok value) :
    FollowsColumns (locatedKeys p value) ↔ Placed [] (keyLines none p.lines) := by
  have hreads := Parser.init_reads hinit
  obtain ⟨-, hlines, -, hlays⟩ := locatedKeys_of_parse hreads.noEmptyItem hparse
  have heven : ∀ key ∈ locatedKeys p value, key.line.column % 2 = 0 := by
    intro key hkey
    have hmem : key.line ∈ p.lines := mem_of_mem_keyLines (hlines ▸ List.mem_map_of_mem hkey)
    exact Line.even_column (hreads.readable _ hmem).even
  rw [← hlines]
  exact ⟨fun hcolumns => hlays.placed hcolumns fun _ _ _ => .inl rfl, hlays.followsColumns heven⟩

/-- The keys of a list item with a value and a further entry follow their columns. -/
theorem followsColumns_iff_placed_item :
    let p : Parser := ⟨[⟨0, "- a:".toList⟩, ⟨4, "b: 1".toList⟩, ⟨2, "c: 2".toList⟩],
      List.cons_ne_nil _ _⟩
    let value := Value.list [.map [("a".toList, .map [("b".toList, .scalar (.int 1))]),
      ("c".toList, .scalar (.int 2))]]
    FollowsColumns (locatedKeys p value) ∧ Placed [] (keyLines none p.lines) := by
  intro p value
  have hiff := followsColumns_iff_placed "- a:\n    b: 1\n  c: 2\n".toList p value rfl rfl
  have hcolumns : FollowsColumns (locatedKeys p value) := by decide
  exact ⟨hcolumns, hiff.mp hcolumns⟩

/-- A key in the column of its list item is read as part of its value, and a key further to the
right is read as an entry of the same map. -/
theorem nesting_leaves_columns :
    (∃ p value, Parser.init "- a:\n  b: 1\n".toList = .ok p ∧ p.parse = .ok value ∧
      value = .list [.map [("a".toList, .map [("b".toList, .scalar (.int 1))])]] ∧
      (keyLines none p.lines).map Line.column = [2, 2] ∧ ¬FollowsColumns (locatedKeys p value)) ∧
    ∃ p value, Parser.init "- a: 1\n    b: 2\n".toList = .ok p ∧ p.parse = .ok value ∧
      value = .list [.map [("a".toList, .scalar (.int 1)), ("b".toList, .scalar (.int 2))]] ∧
      (keyLines none p.lines).map Line.column = [2, 4] ∧ ¬FollowsColumns (locatedKeys p value) :=
  ⟨⟨⟨[⟨0, "- a:".toList⟩, ⟨2, "b: 1".toList⟩], List.cons_ne_nil _ _⟩, _, rfl, rfl, rfl, by decide,
      by decide⟩,
    ⟨⟨[⟨0, "- a: 1".toList⟩, ⟨4, "b: 2".toList⟩], List.cons_ne_nil _ _⟩, _, rfl, rfl, rfl,
      by decide, by decide⟩⟩

end RealityCore.Workflow
