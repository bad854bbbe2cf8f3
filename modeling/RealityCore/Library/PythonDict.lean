import Mathlib.Data.List.Forall2
import Mathlib.Data.List.Sort
import Mathlib.Data.List.Perm.Subperm

/-!
# Python dictionaries

A dictionary is the list of its items in insertion order. Assignment replaces the value of a
key in place or appends a new item, and equality ignores the order. Two dictionaries whose
keys ascend are equal exactly when they list the same items.
-/

namespace Python

variable {κ ν : Type*} [DecidableEq κ]

/-- A dictionary: its items in insertion order. -/
abbrev Dict (κ ν : Type*) := List (κ × ν)

/-- The keys in insertion order. -/
def Dict.keys (d : Dict κ ν) : List κ := d.map Prod.fst

/-- `d[key] = value` -/
def Dict.set (d : Dict κ ν) (key : κ) (value : ν) : Dict κ ν :=
  if key ∈ d.keys then d.map fun item => if item.1 = key then (key, value) else item
  else d ++ [(key, value)]

/-- `d[key]`, with `none` for `KeyError`. -/
def Dict.get? (d : Dict κ ν) (key : κ) : Option ν := d.lookup key

/-- `d == e`, with the comparison of values. -/
def Dict.equal (same : ν → ν → Bool) (d e : Dict κ ν) : Bool :=
  d.length == e.length && d.all fun item => (e.lookup item.1).any (same item.2)

/-- A new key is appended. -/
theorem Dict.set_of_notMem {d : Dict κ ν} {key : κ} (h : key ∉ d.keys) (value : ν) :
    d.set key value = d ++ [(key, value)] := if_neg h

/-- An assignment keeps the keys, and appends its own when it is new. -/
theorem Dict.keys_set (d : Dict κ ν) (key : κ) (value : ν) :
    (d.set key value).keys = if key ∈ d.keys then d.keys else d.keys ++ [key] := by
  by_cases h : key ∈ d.keys
  · rw [Dict.set, if_pos h, if_pos h, Dict.keys, List.map_map]
    refine List.map_congr_left fun item _ => ?_
    by_cases hitem : item.1 = key
    · simp [hitem]
    · simp [hitem]
  · rw [Dict.set_of_notMem h, if_neg h, Dict.keys, List.map_append]
    rfl

/-- An assignment keeps the keys distinct. -/
theorem Dict.nodup_keys_set {d : Dict κ ν} (h : d.keys.Nodup) (key : κ) (value : ν) :
    (d.set key value).keys.Nodup := by
  rw [Dict.keys_set]
  by_cases hkey : key ∈ d.keys
  · rwa [if_pos hkey]
  · rw [if_neg hkey]
    exact List.concat_eq_append ▸ h.concat hkey

/-- The first item with the key gives the value. -/
theorem Dict.get?_cons (item : κ × ν) (d : Dict κ ν) (key : κ) :
    Dict.get? (item :: d) key = if key = item.1 then some item.2 else d.get? key := by
  rw [Dict.get?, List.lookup_cons]
  by_cases h : key = item.1
  · simp [h]
  · simp [h, beq_eq_false_iff_ne.mpr h, Dict.get?]

/-- A key that is not in the dictionary holds nothing. -/
theorem Dict.get?_eq_none {d : Dict κ ν} {key : κ} (h : key ∉ d.keys) : d.get? key = none := by
  refine List.lookup_eq_none_iff.mpr fun item hitem => bne_iff_ne.mpr fun heq => h ?_
  exact heq ▸ List.mem_map_of_mem hitem

/-- A key that is in the dictionary holds a value. -/
theorem Dict.exists_get? {d : Dict κ ν} {key : κ} (h : key ∈ d.keys) :
    ∃ value, d.get? key = some value := by
  refine Option.ne_none_iff_exists'.mp fun hnone => ?_
  obtain ⟨item, hitem, rfl⟩ := List.mem_map.mp h
  exact bne_iff_ne.mp (List.lookup_eq_none_iff.mp hnone item hitem) rfl

/-- Replacing the value of a key does not change what the others hold. -/
theorem Dict.get?_replace_of_ne {key other : κ} (h : other ≠ key) (d : Dict κ ν) (value : ν) :
    Dict.get? (d.map fun item => if item.1 = key then (key, value) else item) other =
      d.get? other := by
  induction d with
  | nil => rfl
  | cons item d ih =>
    rw [List.map_cons, Dict.get?_cons, Dict.get?_cons, ih]
    by_cases hitem : item.1 = key
    · simp [hitem, h]
    · simp [hitem]

/-- Replacing the value of a key changes what that key holds. -/
theorem Dict.get?_replace {d : Dict κ ν} {key : κ} (h : key ∈ d.keys) (value : ν) :
    Dict.get? (d.map fun item => if item.1 = key then (key, value) else item) key =
      some value := by
  induction d with
  | nil => simp [Dict.keys] at h
  | cons item d ih =>
    rw [List.map_cons, Dict.get?_cons]
    by_cases hitem : item.1 = key
    · simp [hitem]
    · have hne : ¬key = item.1 := fun heq => hitem heq.symm
      simp [hitem, hne, ih ((List.mem_cons.mp h).resolve_left hne)]

/-- An assignment changes what its key holds, and nothing else. -/
theorem Dict.get?_set (d : Dict κ ν) (key : κ) (value : ν) (other : κ) :
    (d.set key value).get? other = if other = key then some value else d.get? other := by
  by_cases hmem : key ∈ d.keys
  · rw [Dict.set, if_pos hmem]
    by_cases hother : other = key
    · rw [if_pos hother, hother, Dict.get?_replace hmem]
    · rw [if_neg hother, Dict.get?_replace_of_ne hother]
  · rw [Dict.set_of_notMem hmem]
    by_cases hother : other = key
    · subst hother
      have hnone := Dict.get?_eq_none hmem
      rw [Dict.get?] at hnone ⊢
      simp [List.lookup_append, hnone]
    · have hlast : List.lookup other [(key, value)] = none := by
        simp [List.lookup_cons, beq_eq_false_iff_ne.mpr hother]
      rw [Dict.get?, List.lookup_append, hlast]
      simp [hother, Dict.get?]

/-- With distinct keys, the value found under a key is that of the item with the key. -/
theorem Dict.lookup_eq_some_iff {d : Dict κ ν} (h : d.keys.Nodup) {key : κ} {value : ν} :
    d.lookup key = some value ↔ (key, value) ∈ d := by
  induction d with
  | nil => simp
  | cons item d ih =>
    obtain ⟨first, held⟩ := item
    obtain ⟨hk, hd⟩ := List.nodup_cons.mp h
    by_cases heq : key = first
    · subst heq
      have hno : (key, value) ∉ d := fun hmem => hk (List.mem_map.mpr ⟨_, hmem, rfl⟩)
      simp [hno, eq_comm]
    · have hlookup : List.lookup key ((first, held) :: d) = List.lookup key d := by
        rw [List.lookup_cons, beq_eq_false_iff_ne.mpr heq]
      simp [hlookup, ih hd, heq]

/-- Dictionaries with the same distinct keys are equal when one holds the values of the other. -/
theorem Dict.eq_of_get? {d e : Dict κ ν} (hkeys : d.keys = e.keys) (hnodup : e.keys.Nodup)
    (h : ∀ item ∈ e, d.get? item.1 = some item.2) : d = e := by
  induction e generalizing d with
  | nil => exact List.map_eq_nil_iff.mp hkeys
  | cons item e ih =>
    obtain ⟨⟨first, held⟩, d, rfl, hkey, htail⟩ := List.map_eq_cons_iff.mp hkeys
    obtain ⟨hnew, hnodup⟩ := List.nodup_cons.mp hnodup
    obtain ⟨hitem, hrest⟩ := List.forall_mem_cons.mp h
    have hvalue : held = item.2 := by simpa [Dict.get?, ← hkey] using hitem
    have hget : ∀ i ∈ e, Dict.get? d i.1 = some i.2 := by
      intro i hi
      have hne : i.1 ≠ first := fun heq =>
        hnew (hkey ▸ List.mem_map.mpr ⟨i, hi, heq⟩)
      have := hrest i hi
      rwa [Dict.get?, List.lookup_cons, beq_eq_false_iff_ne.mpr hne] at this
    rw [ih htail hnodup hget, Prod.ext hkey hvalue]

/-- A dictionary is the one with its distinct keys in their order that holds its values. -/
theorem Dict.eq_iff_get? {d e : Dict κ ν} (hnodup : e.keys.Nodup) :
    d.keys = e.keys ∧ (∀ item ∈ e, d.get? item.1 = some item.2) ↔ d = e := by
  refine ⟨fun h => Dict.eq_of_get? h.1 hnodup h.2, ?_⟩
  rintro rfl
  exact ⟨rfl, fun item hitem => (Dict.lookup_eq_some_iff hnodup).mpr hitem⟩

/-- A dictionary with its values mapped holds the images of the values. -/
theorem Dict.get?_mapValues (f : κ → ν → ν) (d : Dict κ ν) (key : κ) :
    Dict.get? (d.map fun item => (item.1, f item.1 item.2)) key = (d.get? key).map (f key) := by
  induction d with
  | nil => rfl
  | cons item d ih =>
    rw [List.map_cons, Dict.get?_cons, Dict.get?_cons, ih]
    by_cases hkey : key = item.1
    · rw [if_pos hkey, if_pos hkey, hkey, Option.map_some]
    · rw [if_neg hkey, if_neg hkey]

/-- What a key holds is an item with that key. -/
theorem Dict.mem_of_get? {d : Dict κ ν} {key : κ} {value : ν} (h : d.get? key = some value) :
    (key, value) ∈ d := by
  induction d with
  | nil => cases h
  | cons item d ih =>
    rw [Dict.get?_cons] at h
    by_cases hkey : key = item.1
    · rw [if_pos hkey] at h
      rw [hkey, ← Option.some.inj h]
      exact List.mem_cons_self
    · rw [if_neg hkey] at h
      exact List.mem_cons_of_mem _ (ih h)

/-- A dictionary has the items of another one of its size that holds its values. -/
theorem Dict.perm_of_get? {d e : Dict κ ν} (hd : d.keys.Nodup) (hlength : d.length = e.length)
    (h : ∀ item ∈ d, e.get? item.1 = some item.2) : d.Perm e := by
  have hsubset : d ⊆ e := fun item hitem => Dict.mem_of_get? (h item hitem)
  have hnodup : d.Nodup := List.Nodup.of_map Prod.fst hd
  exact (List.subperm_of_subset hnodup hsubset).perm_of_length_le hlength.ge

/-- Where the comparison of values is equality, dictionaries with keys in a strict order are
equal exactly when they list the same items. -/
theorem Dict.equal_iff_eq {r : κ → κ → Prop} (hr : ∀ a b, r a b → ¬r b a) {same : ν → ν → Bool}
    {d e : Dict κ ν} (hd : d.keys.Pairwise r) (he : e.keys.Pairwise r)
    (hsame : ∀ p ∈ d, ∀ q ∈ e, same p.2 q.2 = true ↔ p.2 = q.2) :
    d.equal same e = true ↔ d = e := by
  have hnodup : ∀ {l : List κ}, l.Pairwise r → l.Nodup := fun hl =>
    hl.imp fun {a b} hab heq => by subst heq; exact hr a a hab hab
  have hequal : d.equal same e = true ↔ d.length = e.length ∧
      ∀ item ∈ d, ∃ value, e.lookup item.1 = some value ∧ same item.2 value = true := by
    simp [Dict.equal, Option.any_eq_true]
  rw [hequal]
  constructor
  · rintro ⟨hlength, hitems⟩
    have hmem : ∀ item ∈ d, item ∈ e := by
      intro item hitem
      obtain ⟨value, hvalue, heq⟩ := hitems item hitem
      have hvalue := (Dict.lookup_eq_some_iff (hnodup he)).mp hvalue
      rw [hsame item hitem _ hvalue] at heq
      rwa [show item = (item.1, value) from Prod.ext rfl heq]
    have hperm : d.Perm e := by
      have hd' : d.Nodup := List.Nodup.of_map Prod.fst (hnodup hd)
      exact (List.subperm_of_subset hd' hmem).perm_of_length_le hlength.ge
    have hd : d.Pairwise fun p q => r p.1 q.1 := List.pairwise_map.mp hd
    have he : e.Pairwise fun p q => r p.1 q.1 := List.pairwise_map.mp he
    exact hperm.eq_of_pairwise (fun p q _ _ hpq hqp => absurd hqp (hr _ _ hpq)) hd he
  · rintro rfl
    refine ⟨rfl, fun item hitem => ⟨item.2, ?_, (hsame item hitem item hitem).mpr rfl⟩⟩
    exact (Dict.lookup_eq_some_iff (hnodup hd)).mpr hitem

end Python
