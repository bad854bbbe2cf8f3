import Mathlib.Logic.Function.Basic

/-!
# Patches of maps

A patch puts some entries into a map and removes some keys from it. When no key is both put and
removed, the order of the two does not matter.
-/

namespace MapPatch

variable {κ ν : Type*} [DecidableEq κ]

/-- Put entries into a map, one after another. -/
def putAll (entries : List (κ × ν)) (m : κ → Option ν) : κ → Option ν :=
  entries.foldl (fun m entry => Function.update m entry.1 (some entry.2)) m

/-- Remove keys from a map, one after another. -/
def removeAll (keys : List κ) (m : κ → Option ν) : κ → Option ν :=
  keys.foldl (fun m key => Function.update m key none) m

/-- A key that is not put may be removed before or after. -/
theorem putAll_update {entries : List (κ × ν)} {key : κ} (h : key ∉ entries.map Prod.fst)
    (m : κ → Option ν) :
    putAll entries (Function.update m key none) = Function.update (putAll entries m) key none := by
  induction entries generalizing m with
  | nil => rfl
  | cons entry entries ih =>
    obtain ⟨hne, hkey⟩ := not_or.mp (List.mem_cons.not.mp h)
    have hcomm : Function.update (Function.update m key none) entry.1 (some entry.2) =
        Function.update (Function.update m entry.1 (some entry.2)) key none :=
      Function.update_comm hne none (some entry.2) m
    rw [putAll, List.foldl_cons, hcomm]
    exact ih hkey _

/-- Putting entries and removing other keys commute. -/
theorem putAll_removeAll {entries : List (κ × ν)} {keys : List κ}
    (h : ∀ key ∈ keys, key ∉ entries.map Prod.fst) (m : κ → Option ν) :
    putAll entries (removeAll keys m) = removeAll keys (putAll entries m) := by
  induction keys generalizing m with
  | nil => rfl
  | cons key keys ih =>
    obtain ⟨hkey, hkeys⟩ := List.forall_mem_cons.mp h
    rw [removeAll, List.foldl_cons, removeAll, List.foldl_cons, ← putAll_update hkey]
    exact ih hkeys _

end MapPatch
