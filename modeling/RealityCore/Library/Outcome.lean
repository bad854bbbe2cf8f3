import Mathlib.Data.List.Forall2

/-!
# Outcomes of computations that may fail

Inversion rules for `Except`: a sequence returns when each part does, and a loop over a list
returns the results of its rounds or fails as one of them does. Computations over different data are
related when they end in the same way.
-/

namespace Outcome

universe u

variable {ε : Type*} {α β : Type u}

instance decidableEqExcept [DecidableEq ε] [DecidableEq α] : DecidableEq (Except ε α)
  | .ok a, .ok b => decidable_of_iff (a = b) ⟨congrArg Except.ok, Except.ok.inj⟩
  | .error a, .error b => decidable_of_iff (a = b) ⟨congrArg Except.error, Except.error.inj⟩
  | .ok _, .error _ => isFalse nofun
  | .error _, .ok _ => isFalse nofun

/-- A sequence returns exactly when its first part does and the rest does with its value. -/
theorem bind_eq_ok_iff {x : Except ε α} {f : α → Except ε β} {b : β} :
    x >>= f = .ok b ↔ ∃ a, x = .ok a ∧ f a = .ok b := by
  cases x <;> simp [bind, Except.bind]

/-- A sequence fails exactly when its first part does or the rest does with its value. -/
theorem bind_eq_error_iff {x : Except ε α} {f : α → Except ε β} {e : ε} :
    x >>= f = .error e ↔ x = .error e ∨ ∃ a, x = .ok a ∧ f a = .error e := by
  cases x <;> simp [bind, Except.bind]

/-- A guarded computation returns exactly when the guard lets it and it returns. -/
theorem guard_eq_ok_iff {c : Prop} [Decidable c] {e : ε} {x : Except ε α} {a : α} :
    (if c then .error e else x) = .ok a ↔ ¬c ∧ x = .ok a := by
  by_cases h : c <;> simp [h]

section Related

variable {φ : Type*} {failures : ε → φ → Prop}

/-- Outcomes of one kind, with related values or related failures. -/
inductive Related {γ : Type*} (failures : ε → φ → Prop) (values : α → γ → Prop) :
    Except ε α → Except φ γ → Prop
  | ok {a c} (h : values a c) : Related failures values (.ok a) (.ok c)
  | error {e f} (h : failures e f) : Related failures values (.error e) (.error f)

/-- Sequences of related parts are related. -/
theorem Related.bind {γ δ : Type u} {values : α → γ → Prop} {results : β → δ → Prop}
    {x : Except ε α} {y : Except φ γ} {f : α → Except ε β} {g : γ → Except φ δ}
    (h : Related failures values x y)
    (hrest : ∀ a c, values a c → Related failures results (f a) (g c)) :
    Related failures results (x >>= f) (y >>= g) := by
  cases h with
  | ok h => exact hrest _ _ h
  | error h => exact .error h

/-- Computations behind guards that agree are related when the guarded ones are. -/
theorem Related.guard {γ : Type*} {c d : Prop} [Decidable c] [Decidable d]
    {values : α → γ → Prop} {e : ε} {f : φ} {x : Except ε α} {y : Except φ γ} (hguard : c ↔ d)
    (hfailure : failures e f) (h : Related failures values x y) :
    Related failures values (if c then .error e else x) (if d then .error f else y) := by
  by_cases hc : c
  · rw [if_pos hc, if_pos (hguard.mp hc)]
    exact .error hfailure
  · rw [if_neg hc, if_neg fun hd => hc (hguard.mpr hd)]
    exact h

/-- Related checks pass together. -/
theorem Related.eq_ok_iff {values : PUnit → PUnit → Prop} {x : Except ε PUnit} {y : Except φ PUnit}
    (h : Related failures values x y) : x = .ok () ↔ y = .ok () := by
  cases h with
  | ok _ => exact iff_of_true rfl rfl
  | error _ => exact iff_of_false nofun nofun

end Related

/-- A mapped computation returns the image of what the computation returns. -/
theorem map_eq_ok_iff {x : Except ε α} {f : α → β} {b : β} :
    x.map f = .ok b ↔ ∃ a, x = .ok a ∧ f a = b := by
  cases x <;> simp [Except.map]

/-- A loop over checks passes exactly when each check does. -/
theorem forM_eq_ok_iff {γ : Type*} {check : γ → Except ε PUnit} {items : List γ} :
    forM items check = .ok () ↔ ∀ item ∈ items, check item = .ok () := by
  induction items with
  | nil => simp [pure, Except.pure]
  | cons item items ih =>
    rw [List.forM_cons, bind_eq_ok_iff, List.forall_mem_cons, ← ih]
    exact ⟨fun ⟨_, hitem, hrest⟩ => ⟨hitem, hrest⟩, fun ⟨hitem, hrest⟩ => ⟨_, hitem, hrest⟩⟩

/-- A loop over checks fails as the first check does that fails. -/
theorem forM_eq_error_iff {γ : Type*} {check : γ → Except ε PUnit} {items : List γ} {e : ε} :
    forM items check = .error e ↔ ∃ front item rest, items = front ++ item :: rest ∧
      (∀ passed ∈ front, check passed = .ok ()) ∧ check item = .error e := by
  induction items with
  | nil => simp [pure, Except.pure]
  | cons item items ih =>
    rw [List.forM_cons, bind_eq_error_iff, ih]
    constructor
    · rintro (hitem | ⟨_, hitem, front, failed, rest, rfl, hfront, hfailed⟩)
      · exact ⟨[], item, items, rfl, by simp, hitem⟩
      · exact ⟨item :: front, failed, rest, rfl, List.forall_mem_cons.mpr ⟨hitem, hfront⟩, hfailed⟩
    · rintro ⟨front, failed, rest, heq, hfront, hfailed⟩
      cases front with
      | nil =>
        obtain ⟨rfl, rfl⟩ := List.cons.inj heq
        exact .inl hfailed
      | cons first front =>
        obtain ⟨rfl, rfl⟩ := List.cons.inj heq
        obtain ⟨hitem, hfront⟩ := List.forall_mem_cons.mp hfront
        exact .inr ⟨_, hitem, front, failed, rest, rfl, hfront, hfailed⟩

/-- When a check fails, the loop fails as this check does or as one before it. -/
theorem exists_forM_eq_error {γ : Type*} {check : γ → Except ε PUnit} {item : γ} {e : ε}
    (front rest : List γ) (h : check item = .error e) :
    ∃ failed ∈ front ++ [item], ∃ e', check failed = .error e' ∧
      forM (front ++ item :: rest) check = .error e' := by
  induction front with
  | nil =>
    refine ⟨item, List.mem_singleton.mpr rfl, e, h, ?_⟩
    rw [List.nil_append, List.forM_cons, h]
    rfl
  | cons first front ih =>
    rw [List.cons_append, List.cons_append, List.forM_cons]
    cases hfirst : check first with
    | error e' => exact ⟨first, .head _, e', hfirst, rfl⟩
    | ok u =>
      obtain ⟨failed, hmem, e', hfailed, hloop⟩ := ih
      exact ⟨failed, .tail _ hmem, e', hfailed, hloop⟩

/-- A loop that carries a value returns what its rounds make of it. -/
theorem foldlM_eq_ok {γ : Type*} {step : β → γ → Except ε β} {next : β → γ → β} {P : γ → Prop}
    (hstep : ∀ value item result, step value item = .ok result →
      result = next value item ∧ P item)
    {items : List γ} {value result : β} (h : items.foldlM step value = .ok result) :
    result = items.foldl next value ∧ ∀ item ∈ items, P item := by
  induction items generalizing value with
  | nil =>
    cases h
    exact ⟨rfl, by simp⟩
  | cons item items ih =>
    rw [List.foldlM_cons, bind_eq_ok_iff] at h
    obtain ⟨between, hfirst, hrest⟩ := h
    obtain ⟨rfl, hitem⟩ := hstep _ _ _ hfirst
    obtain ⟨rfl, hitems⟩ := ih hrest
    exact ⟨rfl, List.forall_mem_cons.mpr ⟨hitem, hitems⟩⟩

/-- A loop returns exactly when each of its rounds does. -/
theorem mapM_eq_ok_iff {f : α → Except ε β} {l : List α} {results : List β} :
    l.mapM f = .ok results ↔ List.Forall₂ (fun a b => f a = .ok b) l results := by
  induction l generalizing results with
  | nil => simp [pure, Except.pure, eq_comm]
  | cons a l ih =>
    simp only [List.mapM_cons, bind_eq_ok_iff, ih, List.forall₂_cons_left_iff, pure, Except.pure,
      Except.ok.injEq, exists_and_left, @eq_comm _ results]

/-- Values that satisfy a relation are related to their sources, one by one. -/
theorem forall₂_filterMap {l : List α} {f : α → Option β} {R : α → β → Prop}
    (h : ∀ a ∈ l, ∃ b, f a = some b ∧ R a b) : List.Forall₂ R l (l.filterMap f) := by
  induction l with
  | nil => simp
  | cons a l ih =>
    obtain ⟨b, hb, hR⟩ := h a List.mem_cons_self
    rw [List.filterMap_cons_some hb]
    exact .cons hR (ih fun a' ha' => h a' (List.mem_cons_of_mem a ha'))

/-- Each member of the left list is related to a member of the right one. -/
theorem exists_of_forall₂_left {l : List α} {results : List β} {R : α → β → Prop}
    (h : List.Forall₂ R l results) {a : α} (ha : a ∈ l) : ∃ b ∈ results, R a b := by
  obtain ⟨i, hi, rfl⟩ := List.mem_iff_getElem.mp ha
  have hi' : i < results.length := h.length_eq ▸ hi
  exact ⟨results[i], List.getElem_mem hi', h.get hi hi'⟩

/-- Each member of the right list is related to a member of the left one. -/
theorem exists_of_forall₂_right {l : List α} {results : List β} {R : α → β → Prop}
    (h : List.Forall₂ R l results) {b : β} (hb : b ∈ results) : ∃ a ∈ l, R a b :=
  exists_of_forall₂_left h.flip hb

/-- Lists related item by item stay so under a relation that holds of their members. -/
theorem forall₂_imp_of_mem {l : List α} {results : List β} {R S : α → β → Prop}
    (h : List.Forall₂ R l results) (hS : ∀ a b, a ∈ l → R a b → S a b) :
    List.Forall₂ S l results := by
  induction h with
  | nil => exact .nil
  | cons hab _ ih =>
    exact .cons (hS _ _ List.mem_cons_self hab)
      (ih fun a b hmem => hS a b (List.mem_cons_of_mem _ hmem))

/-- Lists related item by item have the same image when related items have. -/
theorem map_eq_map_of_forall₂ {γ : Type*} {l : List α} {results : List β} {R : α → β → Prop}
    {f : α → γ} {g : β → γ} (h : List.Forall₂ R l results) (hR : ∀ a b, R a b → f a = g b) :
    l.map f = results.map g := by
  induction h with
  | nil => rfl
  | cons hab _ ih => rw [List.map_cons, List.map_cons, hR _ _ hab, ih]

/-- The only member of a list, or a failure. -/
def only {ε α : Type*} (e : ε) : List α → Except ε α
  | [a] => .ok a
  | _ => .error e

/-- The only member of a list is a member. -/
theorem mem_of_only {ε α : Type*} {l : List α} {e : ε} {a : α} (h : only e l = .ok a) : a ∈ l := by
  match l, h with
  | [found], h => exact Except.ok.inj h ▸ List.mem_singleton_self found

/-- Lists with the same members have the same only member, or none of them has one. -/
theorem only_of_perm {ε ε' α : Type*} {l l' : List α} (h : l.Perm l') (e : ε) (e' : ε') :
    (∃ a, only e l = .ok a ∧ only e' l' = .ok a) ∨
      only e l = .error e ∧ only e' l' = .error e' := by
  match l, l', h with
  | [], l', h =>
    obtain rfl := h.nil_eq
    exact .inr ⟨rfl, rfl⟩
  | [a], l', h =>
    obtain rfl := h.singleton_eq
    exact .inl ⟨a, rfl, rfl⟩
  | a :: b :: rest, [], h => exact absurd h.length_eq (by simp)
  | a :: b :: rest, [c], h => exact absurd h.length_eq (by simp)
  | a :: b :: rest, c :: d :: rest', h => exact .inr ⟨rfl, rfl⟩

end Outcome
