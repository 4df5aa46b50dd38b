/-!
# Walks over a finite graph

A walk that never enters a node twice ends because the nodes it has not entered become fewer.
`unvisited` counts them: of the nodes of a finite list, those that are not in the list of visited
ones.
-/

namespace PlotMachine

/-- How many of `nodes` have not been visited. -/
def unvisited {α : Type} [DecidableEq α] (nodes visited : List α) : Nat :=
  nodes.countP (· ∉ visited)

/-- Visiting another node leaves no more nodes to visit. -/
theorem unvisited_cons_le {α : Type} [DecidableEq α] (nodes visited : List α) (a : α) :
    unvisited nodes (a :: visited) ≤ unvisited nodes visited := by
  unfold unvisited
  apply List.countP_mono_left
  simp +contextual

/-- Visiting a node that is not in the graph changes nothing. -/
theorem unvisited_cons_of_not_mem {α : Type} [DecidableEq α] {nodes : List α} (visited : List α)
    {a : α} (h : a ∉ nodes) : unvisited nodes (a :: visited) = unvisited nodes visited := by
  unfold unvisited
  apply List.countP_congr
  intro x hx
  have : x ≠ a := fun e => h (e ▸ hx)
  simp [this]

/-- Visiting a new node of the graph leaves fewer nodes to visit. -/
theorem unvisited_cons_lt {α : Type} [DecidableEq α] {nodes visited : List α} {a : α}
    (h : a ∈ nodes) (new : a ∉ visited) : unvisited nodes (a :: visited) < unvisited nodes visited := by
  induction nodes with
  | nil => cases h
  | cons x xs ih =>
    have rest := unvisited_cons_le xs visited a
    by_cases hx : x = a
    · subst hx
      simp only [unvisited, List.countP_cons] at rest ⊢
      simp only [List.mem_cons, true_or, not_true_eq_false, decide_false, new, not_false_eq_true,
        decide_true, if_true, Bool.false_eq_true, if_false] at rest ⊢
      omega
    · have less := ih (by simpa [Ne.symm hx] using h)
      simp only [unvisited, List.countP_cons, List.mem_cons, hx, false_or] at less ⊢
      omega

end PlotMachine
