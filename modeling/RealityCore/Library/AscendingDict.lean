import Mathlib.Order.Defs.Unbundled
import RealityCore.Library.Outcome
import RealityCore.Library.PythonDict

/-!
# Dictionaries filled in ascending order

A loop that reads one item for each source and refuses a key that does not exceed the
previous one. What it returns is the list of the items read, with ascending keys, so that
the dictionary holds each item at the place of its source.
-/

namespace Python

open Outcome (bind_eq_ok_iff)

universe u

variable {ε : Type*} {α : Type*} {κ ν : Type u} {r : κ → κ → Prop} [IsStrictOrder κ r]

/-- A key extends an ascending list when it exceeds the last key. -/
theorem pairwise_append_singleton_iff {l : List κ} (h : l.Pairwise r) (key : κ) :
    (l ++ [key]).Pairwise r ↔ ∀ last ∈ l.getLast?, r last key := by
  rw [List.pairwise_append]
  constructor
  · rintro ⟨-, -, hall⟩ last hlast
    exact hall last (List.mem_of_getLast? hlast) key (List.mem_singleton_self key)
  · intro hlast
    refine ⟨h, List.pairwise_singleton _ _, fun a ha b hb => ?_⟩
    obtain rfl := List.mem_singleton.mp hb
    obtain ⟨front, last, rfl⟩ :=
      (List.eq_nil_or_concat' l).resolve_left (List.ne_nil_of_mem ha)
    have hkey : r last b := hlast last (by simp)
    rcases List.mem_append.mp ha with ha | ha
    · exact IsTrans.trans _ _ _ ((List.pairwise_append.mp h).2.2 a ha last (by simp)) hkey
    · rwa [List.mem_singleton.mp ha]

variable [DecidableEq κ]

/-- Read the sources in turn, remembering the previous key, and assign each item read. -/
def Dict.gather (read : Option κ → Dict κ ν → α → Except ε (κ × ν)) :
    Option κ → Dict κ ν → List α → Except ε (Dict κ ν)
  | _, d, [] => .ok d
  | previous, d, a :: rest => do
    let item ← read previous d a
    gather read (some item.1) (d.set item.1 item.2) rest

/-- What the loop returns: the items read so far and the items of the remaining sources, when
all keys ascend. -/
theorem Dict.gather_eq_ok_iff {read : Option κ → Dict κ ν → α → Except ε (κ × ν)}
    {Reads : α → κ × ν → Prop}
    (hread : ∀ (d : Dict κ ν) a item, d.keys.Pairwise r →
      (read d.keys.getLast? d a = .ok item ↔
        Reads a item ∧ ∀ last ∈ d.keys.getLast?, r last item.1))
    (sources : List α) {d : Dict κ ν} (hd : d.keys.Pairwise r) (result : Dict κ ν) :
    gather read d.keys.getLast? d sources = .ok result ↔
      ∃ items, List.Forall₂ Reads sources items ∧ d ++ items = result ∧
        result.keys.Pairwise r := by
  induction sources generalizing d with
  | nil =>
    simp only [gather, Except.ok.injEq, List.forall₂_nil_left_iff, exists_eq_left, List.append_nil]
    constructor
    · rintro rfl
      exact ⟨rfl, hd⟩
    · exact And.left
  | cons a rest ih =>
    have hnext : ∀ item : κ × ν, (d ++ [item]).keys = d.keys ++ [item.1] := fun item => by
      simp [Dict.keys]
    have hset : ∀ item : κ × ν, (d.keys ++ [item.1]).Pairwise r →
        gather read (some item.1) (d.set item.1 item.2) rest =
          gather read (d ++ [item]).keys.getLast? (d ++ [item]) rest := by
      intro item hitem
      have hnew : item.1 ∉ d.keys := fun hmem =>
        irrefl (r := r) item.1 ((List.pairwise_append.mp hitem).2.2 _ hmem _ (by simp))
      rw [Dict.set_of_notMem hnew, hnext]
      simp
    rw [gather, bind_eq_ok_iff]
    simp only [hread d a _ hd, ← pairwise_append_singleton_iff hd, List.forall₂_cons_left_iff]
    constructor
    · rintro ⟨item, ⟨hitem, hkey⟩, hrest⟩
      rw [hset item hkey, ih (hnext item ▸ hkey)] at hrest
      obtain ⟨items, hitems, rfl, hkeys⟩ := hrest
      exact ⟨item :: items, ⟨item, items, hitem, hitems, rfl⟩, by simp, hkeys⟩
    · rintro ⟨_, ⟨item, items, hitem, hitems, rfl⟩, rfl, hkeys⟩
      have hsplit : (d ++ item :: items).keys = (d.keys ++ [item.1]) ++ Dict.keys items := by
        simp [Dict.keys]
      have hkey : (d.keys ++ [item.1]).Pairwise r := by
        rw [hsplit] at hkeys
        exact (List.pairwise_append.mp hkeys).1
      refine ⟨item, ⟨hitem, hkey⟩, ?_⟩
      rw [hset item hkey, ih (hnext item ▸ hkey)]
      exact ⟨items, hitems, by simp, hkeys⟩

end Python
