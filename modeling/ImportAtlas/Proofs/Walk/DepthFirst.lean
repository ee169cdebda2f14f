import Mathlib.Data.List.Basic

set_option autoImplicit false

/-!
# Depth-first search

A search over a graph that is given by the successors of each node.  A node that
was entered is not entered again, and nothing is entered beyond a number of
levels.  The nodes entered stand in a list, the latest first.

What a search adds does not depend on nodes that it cannot reach
(`depthFirst_congr`).  Nodes entered before that lead to each other only are
skipped without changing the order of the others (`depthFirst_skip`).
-/

namespace ImportAtlas

variable {α : Type} [DecidableEq α]

/-- The nodes entered after a search from a node, at most `levels` levels deep. -/
def depthFirst (next : α → List α) : (levels : Nat) → α → List α → List α
  | 0, _, entered => entered
  | levels + 1, node, entered =>
    if node ∈ entered then entered
    else (next node).foldl (fun entered node => depthFirst next levels node entered)
      (node :: entered)

variable {next : α → List α} {levels : Nat} {node : α} {entered : List α}

@[simp] theorem depthFirst_zero : depthFirst next 0 node entered = entered := rfl

/-- A node that was entered is not entered again. -/
theorem depthFirst_of_mem (h : node ∈ entered) : depthFirst next levels node entered = entered := by
  cases levels with
  | zero => rfl
  | succ levels => rw [depthFirst, if_pos h]

/-- A new node is entered, then its successors in order, one level deeper. -/
theorem depthFirst_of_not_mem (h : node ∉ entered) :
    depthFirst next (levels + 1) node entered =
      (next node).foldl (fun entered node => depthFirst next levels node entered)
        (node :: entered) := by
  rw [depthFirst, if_neg h]

/-- What holds of a node and, from a node on, of its successors holds of all nodes added. -/
theorem depthFirst_forall {P : α → Prop} (hnext : ∀ a, P a → ∀ b ∈ next a, P b) (hnode : P node)
    (hentered : ∀ a ∈ entered, P a) : ∀ a ∈ depthFirst next levels node entered, P a := by
  induction levels generalizing node entered with
  | zero => exact hentered
  | succ levels ih =>
    by_cases hmem : node ∈ entered
    · rwa [depthFirst_of_mem hmem]
    · rw [depthFirst_of_not_mem hmem]
      refine List.foldlRecOn (next node) _ (motive := fun entered => ∀ a ∈ entered, P a) ?_ ?_
      · exact List.forall_mem_cons.mpr ⟨hnode, hentered⟩
      · exact fun entered hentered b hb => ih (hnext node hnode b hb) hentered

/-- Two graphs that agree on all nodes a search can reach are searched alike. -/
theorem depthFirst_congr {next' : α → List α} {P : α → Prop} (heq : ∀ a, P a → next a = next' a)
    (hnext : ∀ a, P a → ∀ b ∈ next a, P b) (hnode : P node) :
    depthFirst next levels node entered = depthFirst next' levels node entered := by
  induction levels generalizing node entered with
  | zero => rfl
  | succ levels ih =>
    by_cases hmem : node ∈ entered
    · rw [depthFirst_of_mem hmem, depthFirst_of_mem hmem]
    · rw [depthFirst_of_not_mem hmem, depthFirst_of_not_mem hmem, ← heq node hnode]
      exact List.foldl_ext _ _ _ fun entered b hb => ih (hnext node hnode b hb)

/-! ## Skipping nodes entered before -/

section Skip

variable {old : List α} (hold : ∀ a ∈ old, ∀ b ∈ next a, b ∈ old)

include hold

/-- From an old node only old nodes are entered. -/
theorem filter_depthFirst_of_old (hnode : node ∈ old) :
    (depthFirst next levels node entered).filter (· ∉ old) = entered.filter (· ∉ old) := by
  induction levels generalizing node entered with
  | zero => rfl
  | succ levels ih =>
    by_cases hmem : node ∈ entered
    · rw [depthFirst_of_mem hmem]
    · rw [depthFirst_of_not_mem hmem]
      refine List.foldlRecOn (next node) _
        (motive := fun after : List α => after.filter (· ∉ old) = entered.filter (· ∉ old)) ?_ ?_
      · simp [hnode]
      · exact fun after hafter b hb => (ih (hold node hnode b hb)).trans hafter

/-- A search that starts with the old nodes entered adds what a search without them adds, in the
same order, less the old nodes themselves. -/
theorem depthFirst_skip :
    depthFirst next levels node (entered.filter (· ∉ old) ++ old) =
      (depthFirst next levels node entered).filter (· ∉ old) ++ old := by
  induction levels generalizing node entered with
  | zero => rfl
  | succ levels ih =>
    by_cases hnode : node ∈ old
    · rw [depthFirst_of_mem (List.mem_append_right _ hnode), filter_depthFirst_of_old hold hnode]
    · by_cases hmem : node ∈ entered
      · have hkept : node ∈ entered.filter (· ∉ old) ++ old := by simp [hmem, hnode]
        rw [depthFirst_of_mem hkept, depthFirst_of_mem hmem]
      · have hfresh : node ∉ entered.filter (· ∉ old) ++ old := by simp [hmem, hnode]
        have hstart : node :: (entered.filter (· ∉ old) ++ old) =
            (node :: entered).filter (· ∉ old) ++ old := by simp [hnode]
        rw [depthFirst_of_not_mem hfresh, depthFirst_of_not_mem hmem, hstart]
        exact List.foldl_hom (fun entered : List α => entered.filter (· ∉ old) ++ old) fun _ _ => ih

end Skip

end ImportAtlas
