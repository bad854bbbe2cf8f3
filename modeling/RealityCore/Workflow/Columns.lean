import RealityCore.Workflow.Outline

/-!
# Nesting by columns

A block style document shows its nesting by the columns of its keys: the keys of one map stand in
one column, and the keys in the value of a key stand further to the right. The keys of a stretch of
lines keep the rule when those of its parts do and the parts fit together.
-/

namespace RealityCore.Workflow

open Python (Str)

/-- The column of the key of a line. -/
def Line.column (line : Line) : ℕ := if line.isItem then line.indent + 2 else line.indent

/-- The way into the value of a key. -/
def KeyPath.steps (path : KeyPath) : List PathStep := path.map ++ [.key path.key]

/-- The columns of two keys agree with their nesting: keys of one map stand in one column, and a key
in the value of another one stands further to the right. -/
def LocatedKey.Agrees (key other : LocatedKey) : Prop :=
  (key.path.map = other.path.map → key.line.column = other.line.column) ∧
    (key.path.steps <+: other.path.map → key.line.column < other.line.column)

instance : DecidableRel LocatedKey.Agrees := fun _ _ => inferInstanceAs (Decidable (_ ∧ _))

/-- The nesting of all keys follows their columns. -/
def FollowsColumns (keys : List LocatedKey) : Prop := ∀ key ∈ keys, ∀ other ∈ keys, key.Agrees other

instance : DecidablePred FollowsColumns := fun keys =>
  inferInstanceAs (Decidable (∀ key ∈ keys, ∀ other ∈ keys, key.Agrees other))

/-! ## Keys of the parts of a value -/

/-- The way into the value of a key goes on as it starts. -/
theorem KeyPath.head?_steps (path : KeyPath) : path.steps.head? = some path.first := by
  obtain ⟨_ | ⟨step, rest⟩, key⟩ := path <;> rfl

/-- The way to a key in an inner map starts as the way to the map does. -/
theorem KeyPath.head?_map {path : KeyPath} (h : path.map ≠ []) :
    path.map.head? = some path.first := by
  obtain ⟨_ | ⟨step, rest⟩, key⟩ := path
  · exact absurd rfl h
  · rfl

/-- The ways to the keys in a value start as the way to the value does. -/
theorem KeyPath.first_eq_of_steps {path other : KeyPath} (h : path.steps <+: other.map) :
    path.first = other.first := by
  obtain ⟨rest, hrest⟩ := h
  have hne : other.map ≠ [] := by
    rw [← hrest, KeyPath.steps]
    simp
  have hhead := KeyPath.head?_map hne
  rw [← hrest, List.head?_append, KeyPath.head?_steps] at hhead
  exact Option.some.inj hhead

/-- Keys in different parts of a value agree with any columns, unless both are keys of the value. -/
theorem LocatedKey.Agrees.of_first_ne {key other : LocatedKey}
    (hfirst : key.path.first ≠ other.path.first) (hmap : key.path.map ≠ [] ∨ other.path.map ≠ []) :
    key.Agrees other := by
  refine ⟨fun heq => absurd ?_ hfirst,
    fun hsteps => absurd (KeyPath.first_eq_of_steps hsteps) hfirst⟩
  have hne : key.path.map ≠ [] := by
    rcases hmap with hkey | hother
    · exact hkey
    · exact heq ▸ hother
  have hhead := KeyPath.head?_map hne
  rw [heq, KeyPath.head?_map (heq ▸ hne)] at hhead
  exact (Option.some.inj hhead).symm

/-- Two keys agree with their columns also when seen from a value that holds the present one. -/
theorem LocatedKey.agrees_under_iff {step : PathStep} {key other : LocatedKey} :
    (key.under step).Agrees (other.under step) ↔ key.Agrees other := by
  simp [LocatedKey.Agrees, LocatedKey.under, KeyPath.under, KeyPath.steps]

/-- Keys follow their columns also when seen from a value that holds the present one. -/
theorem followsColumns_under_iff {step : PathStep} {keys : List LocatedKey} :
    FollowsColumns (keys.map (.under step)) ↔ FollowsColumns keys := by
  simp [FollowsColumns, LocatedKey.agrees_under_iff]

/-- Two stretches of keys follow their columns when each does and they agree with each other. -/
theorem followsColumns_append_iff {front back : List LocatedKey} :
    FollowsColumns (front ++ back) ↔ FollowsColumns front ∧ FollowsColumns back ∧
      ∀ key ∈ front, ∀ other ∈ back, key.Agrees other ∧ other.Agrees key := by
  simp only [FollowsColumns, List.mem_append, or_imp, forall_and]
  constructor
  · rintro ⟨⟨hfront, hback⟩, hcross, hboth⟩
    exact ⟨hfront, hboth, hcross, fun key hkey other hother => hback other hother key hkey⟩
  · rintro ⟨hfront, hback, hcross, hcross'⟩
    exact ⟨⟨hfront, fun key hkey other hother => hcross' other hother key hkey⟩, hcross, hback⟩

/-- A key agrees with a key in its value when that one stands further to the right. -/
theorem agrees_value_iff {name : Str} {line : Line} {key : LocatedKey} :
    (LocatedKey.mk ⟨[], name⟩ line).Agrees (key.under (.key name)) ∧
        (key.under (.key name)).Agrees ⟨⟨[], name⟩, line⟩ ↔ line.column < key.line.column := by
  simp [LocatedKey.Agrees, LocatedKey.under, KeyPath.under, KeyPath.steps]

/-- A key agrees with the other entries of its map when they stand in its column. -/
theorem agrees_entry_iff {name : Str} {line : Line} {key : LocatedKey}
    (hname : key.path.first ≠ .key name) :
    (LocatedKey.mk ⟨[], name⟩ line).Agrees key ∧ key.Agrees ⟨⟨[], name⟩, line⟩ ↔
      (key.path.map = [] → key.line.column = line.column) := by
  constructor
  · exact fun h => h.2.1
  · intro h
    refine ⟨⟨fun heq => (h heq.symm).symm, fun hsteps => ?_⟩, h, fun hsteps => ?_⟩
    · exact absurd (KeyPath.first_eq_of_steps hsteps).symm hname
    · exact absurd (List.prefix_nil.mp hsteps) (by simp [KeyPath.steps])

/-- The keys of an entry and of the entries after it follow their columns when the value of the
entry stands further to the right and the other entries stand in its column. -/
theorem followsColumns_entry_iff {name : Str} {line : Line} {below keys : List LocatedKey}
    (hname : ∀ key ∈ keys, key.path.first ≠ .key name) :
    FollowsColumns (⟨⟨[], name⟩, line⟩ :: (below.map (.under (.key name)) ++ keys)) ↔
      (FollowsColumns below ∧ ∀ key ∈ below, line.column < key.line.column) ∧
        FollowsColumns keys ∧ ∀ key ∈ keys, key.path.map = [] → key.line.column = line.column := by
  have hsingle : FollowsColumns [⟨⟨[], name⟩, line⟩] := by
    simp [FollowsColumns, LocatedKey.Agrees, KeyPath.steps]
  have hcross : ∀ key ∈ below, ∀ other ∈ keys,
      (key.under (.key name)).Agrees other ∧ other.Agrees (key.under (.key name)) := by
    intro key _ other hother
    exact ⟨.of_first_ne (hname other hother).symm (.inl (List.cons_ne_nil _ _)),
      .of_first_ne (hname other hother) (.inr (List.cons_ne_nil _ _))⟩
  rw [← List.singleton_append, followsColumns_append_iff, followsColumns_append_iff,
    followsColumns_under_iff]
  simp only [List.mem_singleton, forall_eq, List.forall_mem_append, List.forall_mem_map,
    agrees_value_iff]
  constructor
  · rintro ⟨-, ⟨hbelow, hkeys, -⟩, hdeeper, hsame⟩
    exact ⟨⟨hbelow, hdeeper⟩, hkeys, fun key hkey =>
      (agrees_entry_iff (hname key hkey)).mp (hsame key hkey)⟩
  · rintro ⟨⟨hbelow, hdeeper⟩, hkeys, hsame⟩
    exact ⟨hsingle, ⟨hbelow, hkeys, hcross⟩, hdeeper, fun key hkey =>
      (agrees_entry_iff (hname key hkey)).mpr (hsame key hkey)⟩

/-- The keys of a list follow their columns when those of each item do. -/
theorem followsColumns_item_iff {index : ℕ} {item keys : List LocatedKey}
    (hindex : ∀ key ∈ keys, key.path.map ≠ [] ∧ key.path.first ≠ .item index) :
    FollowsColumns (item.map (.under (.item index)) ++ keys) ↔
      FollowsColumns item ∧ FollowsColumns keys := by
  have hcross : ∀ key ∈ item.map (.under (.item index)), ∀ other ∈ keys,
      key.Agrees other ∧ other.Agrees key := by
    intro key hkey other hother
    obtain ⟨inner, -, rfl⟩ := List.mem_map.mp hkey
    obtain ⟨hmap, hfirst⟩ := hindex other hother
    exact ⟨.of_first_ne hfirst.symm (.inr hmap), .of_first_ne hfirst (.inl hmap)⟩
  rw [followsColumns_append_iff, followsColumns_under_iff]
  exact ⟨fun h => ⟨h.1, h.2.1⟩, fun h => ⟨h.1, h.2, hcross⟩⟩

/-! ## The columns of a stretch -/

/-- The column of a list item is two right of its dash. -/
theorem Line.column_of_isItem {line : Line} (h : line.isItem = true) :
    line.column = line.indent + 2 := if_pos h

/-- The column of any other key line is its indentation. -/
theorem Line.column_of_not_isItem {line : Line} (h : line.isItem = false) :
    line.column = line.indent := if_neg (by simp [h])

/-- Columns are even where indentations are. -/
theorem Line.even_column {line : Line} (h : line.indent % 2 = 0) : line.column % 2 = 0 := by
  rw [Line.column]
  split
  · omega
  · exact h

/-- The columns of a stretch of key lines, by what it is read as. -/
def Shape.Bounds : Shape → LocatedKey → Prop
  | .block indent, key => indent ≤ key.line.column
  | .entries indent, key =>
    indent ≤ key.line.column ∧ (key.path.map = [] → key.line.column = indent)
  | .value _ indent, key | .extra indent, key => indent < key.line.column
  | .items indent _, key => indent + 2 ≤ key.line.column

/-- The columns of a list item are at least that of its first key. -/
theorem bounds_item {indent : ℕ} {name : Str} {line : Line} {below extra : List LocatedKey}
    (hindent : line.indent = indent) (hitem : line.isItem = true)
    (heven : ∀ key ∈ ⟨⟨[], name⟩, line⟩ :: (below.map (.under (.key name)) ++ extra),
      key.line.column % 2 = 0)
    (hbelow : ∀ key ∈ below, indent < key.line.column)
    (hextra : ∀ key ∈ extra, indent < key.line.column) :
    ∀ key ∈ ⟨⟨[], name⟩, line⟩ :: (below.map (.under (.key name)) ++ extra),
      indent + 2 ≤ key.line.column := by
  have hline : line.column = indent + 2 := hindent ▸ Line.column_of_isItem hitem
  have hcolumn := heven _ List.mem_cons_self
  have hdeeper : ∀ key ∈ below.map (.under (.key name)) ++ extra, indent < key.line.column :=
    List.forall_mem_append.mpr ⟨List.forall_mem_map.mpr hbelow, hextra⟩
  refine List.forall_mem_cons.mpr ⟨hline.ge, fun key hkey => ?_⟩
  have hkeyEven := heven key (List.mem_cons_of_mem _ hkey)
  have hkeyDeeper := hdeeper key hkey
  dsimp only at hcolumn
  omega

/-- The keys of a stretch keep its columns. -/
theorem Lays.bounds {shape : Shape} {keys : List LocatedKey} {following : List Line}
    (h : Lays shape keys following) (heven : ∀ key ∈ keys, key.line.column % 2 = 0) :
    ∀ key ∈ keys, shape.Bounds key := by
  induction h with
  | map _ _ ih => exact fun key hkey => (ih heven key hkey).1
  | list _ _ ih => exact fun key hkey => Nat.le_of_add_right_le (ih heven key hkey)
  | leaf | entriesEnd | itemsEnd | extraEnd => exact fun key hkey => absurd hkey List.not_mem_nil
  | nested hdeeper _ ih => exact fun key hkey => hdeeper.trans_le (ih heven key hkey)
  | extra _ hdeeper _ ih => exact fun key hkey => hdeeper.trans_le (ih heven key hkey).1
  | entry hindent hitem _ _ _ ihvalue ihentries =>
    have hline := hindent ▸ Line.column_of_not_isItem hitem
    obtain ⟨-, heven⟩ := List.forall_mem_cons.mp heven
    obtain ⟨hinner, heven⟩ := List.forall_mem_append.mp heven
    refine List.forall_mem_cons.mpr
      ⟨⟨hline.ge, fun _ => hline⟩, List.forall_mem_append.mpr ⟨?_, ?_⟩⟩
    · refine List.forall_mem_map.mpr fun key hkey => ⟨le_of_lt ?_, fun hnil => ?_⟩
      · exact ihvalue (List.forall_mem_map.mp hinner) key hkey
      · exact absurd hnil (List.cons_ne_nil _ _)
    · exact ihentries heven
  | item hindent hitem _ _ _ _ _ ihvalue ihextra ihitems =>
    obtain ⟨hfirst, heven⟩ := List.forall_mem_append.mp heven
    have hfirst := List.forall_mem_map.mp hfirst
    have hrest := List.forall_mem_append.mp (List.forall_mem_cons.mp hfirst).2
    have hbelow := ihvalue (List.forall_mem_map.mp hrest.1)
    refine List.forall_mem_append.mpr ⟨List.forall_mem_map.mpr ?_, ihitems heven⟩
    exact bounds_item hindent hitem hfirst hbelow (ihextra hrest.2)

end RealityCore.Workflow
