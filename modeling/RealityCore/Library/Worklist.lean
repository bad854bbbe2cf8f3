import Mathlib.Data.List.Nodup

/-!
# Loops over a stack of nodes

A loop takes the top node of a stack, looks at it once, pushes the nodes it leads to and adds
what it holds to a list. When the loop ends, the visited nodes are those that can be reached from
the stack. In a tree no node is visited twice, and nothing is found twice.
-/

namespace Worklist

variable {α β : Type*} {expands : α → List α → List β → Prop} {stack visited : List α}
  {found : List β}

/-- The rounds of a loop from a stack to its end, with the nodes visited and what is found.
`expands` tells what a node leads to and what it holds. -/
inductive Visits (expands : α → List α → List β → Prop) : List α → List α → List β → Prop
  | done : Visits expands [] [] []
  | round {node : α} {pushed stack visited : List α} {here found : List β} :
      expands node pushed here → Visits expands (pushed ++ stack) visited found →
        Visits expands (node :: stack) (node :: visited) (here ++ found)

/-- The nodes to which the nodes of a list lead in some steps. -/
inductive Reaches (expands : α → List α → List β → Prop) (starts : List α) : α → Prop
  | start {node : α} : node ∈ starts → Reaches expands starts node
  | child {node next : α} {pushed : List α} {here : List β} :
      Reaches expands starts node → expands node pushed here → next ∈ pushed →
        Reaches expands starts next

/-- A node leads to one list of nodes and holds one list of results. -/
def Deterministic (expands : α → List α → List β → Prop) : Prop :=
  ∀ node pushed here pushed' here', expands node pushed here → expands node pushed' here' →
    pushed = pushed' ∧ here = here'

/-- Nodes with one parent each, below a root, and results with one node each. -/
structure IsTree (expands : α → List α → List β → Prop) (root : α) (parent : α → α)
    (owner : β → α) : Prop where
  pushed_nodup : ∀ {node pushed here}, expands node pushed here → pushed.Nodup
  parent_eq : ∀ {node pushed here next}, expands node pushed here → next ∈ pushed →
    next ≠ root ∧ parent next = node
  here_nodup : ∀ {node pushed here}, expands node pushed here → here.Nodup
  owner_eq : ∀ {node pushed here result}, expands node pushed here → result ∈ here →
    owner result = node

/-- What more starts reach is reached from them, or from a node that is reached already. -/
theorem Reaches.of_subset {starts more : List α} {node : α} (h : Reaches expands more node)
    (hmore : ∀ a ∈ more, Reaches expands starts a) : Reaches expands starts node := by
  induction h with
  | start hmem => exact hmore _ hmem
  | child _ hexpands hmem ih => exact .child ih hexpands hmem

/-- Every node of the stack is visited. -/
theorem Visits.stack_subset (h : Visits expands stack visited found) : stack ⊆ visited := by
  induction h with
  | done => exact List.Subset.refl _
  | round _ _ ih =>
    exact List.cons_subset_cons _ (List.Subset.trans (List.subset_append_right _ _) ih)

/-- Only nodes that the stack reaches are visited. -/
theorem Visits.reaches (h : Visits expands stack visited found) :
    ∀ node ∈ visited, Reaches expands stack node := by
  induction h with
  | done => simp
  | @round node pushed stack visited here found hexpands _ ih =>
    intro a ha
    rcases List.mem_cons.mp ha with rfl | ha
    · exact .start List.mem_cons_self
    · apply (ih a ha).of_subset
      intro b hb
      rcases List.mem_append.mp hb with hb | hb
      · exact .child (.start List.mem_cons_self) hexpands hb
      · exact .start (List.mem_cons_of_mem _ hb)

/-- Every visited node was expanded: what it leads to is visited, and what it holds is found. -/
theorem Visits.expanded (h : Visits expands stack visited found) :
    ∀ node ∈ visited, ∃ pushed here,
      expands node pushed here ∧ pushed ⊆ visited ∧ here ⊆ found := by
  induction h with
  | done => simp
  | @round node pushed stack visited here found hexpands hvisits ih =>
    intro a ha
    rcases List.mem_cons.mp ha with rfl | ha
    · refine ⟨pushed, here, hexpands, ?_, List.subset_append_left _ _⟩
      exact List.Subset.trans (List.subset_append_left _ _)
        (List.Subset.trans hvisits.stack_subset (List.subset_cons_self _ _))
    · obtain ⟨pushed', here', hexpands', hpushed, hhere⟩ := ih a ha
      exact ⟨pushed', here', hexpands', List.Subset.trans hpushed (List.subset_cons_self _ _),
        List.Subset.trans hhere (List.subset_append_right _ _)⟩

/-- Everything found is held by a visited node. -/
theorem Visits.held (h : Visits expands stack visited found) :
    ∀ result ∈ found, ∃ node ∈ visited, ∃ pushed here,
      expands node pushed here ∧ result ∈ here := by
  induction h with
  | done => simp
  | @round node pushed stack visited here found hexpands _ ih =>
    intro result hresult
    rcases List.mem_append.mp hresult with hhere | hfound
    · exact ⟨node, List.mem_cons_self, pushed, here, hexpands, hhere⟩
    · obtain ⟨a, ha, hheld⟩ := ih result hfound
      exact ⟨a, List.mem_cons_of_mem _ ha, hheld⟩

/-- The visited nodes are those that the stack reaches. -/
theorem Visits.mem_visited_iff (h : Visits expands stack visited found)
    (hdet : Deterministic expands) (node : α) :
    node ∈ visited ↔ Reaches expands stack node := by
  constructor
  · exact h.reaches node
  · intro hreaches
    induction hreaches with
    | start hmem => exact h.stack_subset hmem
    | child _ hexpands hmem ih =>
      obtain ⟨pushed, here, hexpands', hpushed, -⟩ := h.expanded _ ih
      exact hpushed ((hdet _ _ _ _ _ hexpands hexpands').1 ▸ hmem)

/-- What is found is what the reached nodes hold. -/
theorem Visits.mem_found_iff (h : Visits expands stack visited found)
    (hdet : Deterministic expands) (result : β) :
    result ∈ found ↔ ∃ node pushed here,
      Reaches expands stack node ∧ expands node pushed here ∧ result ∈ here := by
  constructor
  · intro hfound
    obtain ⟨node, hnode, pushed, here, hexpands, hresult⟩ := h.held result hfound
    exact ⟨node, pushed, here, h.reaches node hnode, hexpands, hresult⟩
  · rintro ⟨node, pushed, here, hreaches, hexpands, hresult⟩
    obtain ⟨pushed', here', hexpands', -, hhere⟩ :=
      h.expanded node ((h.mem_visited_iff hdet node).mpr hreaches)
    exact hhere ((hdet _ _ _ _ _ hexpands hexpands').2 ▸ hresult)

section Tree

variable {root : α} {parent : α → α} {owner : β → α}

/-- In a tree no node is visited twice. The nodes seen so far and those on the stack are
distinct, and the parent of each of them, but for the root, has been seen. -/
theorem Visits.nodup_append (h : Visits expands stack visited found)
    (htree : IsTree expands root parent owner) (seen : List α) (hnodup : (seen ++ stack).Nodup)
    (hparent : ∀ node ∈ seen ++ stack, node = root ∨ parent node ∈ seen) :
    (seen ++ visited).Nodup := by
  induction h generalizing seen with
  | done => exact hnodup
  | @round node pushed stack visited here found hexpands _ ih =>
    have hnode : node ∉ seen := fun hmem =>
      (List.nodup_append.mp hnodup).2.2 node hmem node List.mem_cons_self rfl
    have hnew : ∀ next ∈ pushed, next ∉ seen ++ node :: stack := by
      intro next hnext hold
      obtain ⟨hroot, heq⟩ := htree.parent_eq hexpands hnext
      exact hnode (heq ▸ (hparent next hold).resolve_left hroot)
    have hold : (seen ++ [node] ++ stack).Nodup := by simpa using hnodup
    have hpush : (seen ++ [node] ++ (pushed ++ stack)).Nodup := by
      rw [(List.perm_append_comm_assoc _ _ _).nodup_iff]
      refine List.nodup_append.mpr ⟨htree.pushed_nodup hexpands, hold, ?_⟩
      rintro next hnext _ hmem rfl
      exact hnew next hnext (by simpa using hmem)
    have hseen : (seen ++ [node] ++ visited).Nodup := by
      apply ih (seen ++ [node]) hpush
      intro next hnext
      by_cases hpushed : next ∈ pushed
      · exact .inr (by simp [(htree.parent_eq hexpands hpushed).2])
      · have hmem : next ∈ seen ++ node :: stack := by simp at hnext ⊢; tauto
        exact (hparent next hmem).imp_right (List.mem_append_left _)
    simpa using hseen

/-- In a tree no node is visited twice from the root. -/
theorem Visits.visited_nodup (h : Visits expands [root] visited found)
    (htree : IsTree expands root parent owner) : visited.Nodup := by
  simpa using h.nodup_append htree [] (by simp) (by simp)

/-- In a tree nothing is found twice. -/
theorem Visits.found_nodup (h : Visits expands stack visited found)
    (htree : IsTree expands root parent owner) (hnodup : visited.Nodup) : found.Nodup := by
  induction h with
  | done => exact List.nodup_nil
  | @round node pushed stack visited here found hexpands hvisits ih =>
    obtain ⟨hnew, hnodup⟩ := List.nodup_cons.mp hnodup
    refine List.nodup_append.mpr ⟨htree.here_nodup hexpands, ih hnodup, ?_⟩
    rintro result hhere _ hfound rfl
    obtain ⟨other, hother, pushed', here', hexpands', hresult⟩ := hvisits.held result hfound
    have heq : node = other :=
      (htree.owner_eq hexpands hhere).symm.trans (htree.owner_eq hexpands' hresult)
    exact hnew (heq ▸ hother)

end Tree

end Worklist
