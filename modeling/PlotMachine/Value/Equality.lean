import PlotMachine.Value.Text

/-!
# Equality of values

Arrays are equal when they have the same length and equal items; all other values are compared by
reference. Arrays may be cyclic, so equality is the largest relation that fits this description: a
pair of arrays that is already being compared is taken to be equal. `Heap.equalAll` works through a
list of pairs that all have to be equal and remembers the pairs of arrays it has opened.
-/

namespace PlotMachine

namespace Heap

/-- All pairs of arrays of the heap. -/
def arrayPairs (h : Heap) : List (ArrayRef × ArrayRef) :=
  h.arrayRefs.flatMap fun a => h.arrayRefs.map fun b => (a, b)

/-- A pair of arrays of the heap is among all of them. -/
theorem mem_arrayPairs {h : Heap} {a b : ArrayRef} :
    (a, b) ∈ h.arrayPairs ↔ a ∈ h.arrayRefs ∧ b ∈ h.arrayRefs := by
  simp [arrayPairs]

/-- Whether all given pairs are equal, taking the pairs in `seen` for equal. -/
def equalAll (h : Heap) (seen : List (ArrayRef × ArrayRef)) : List (Value × Value) → Bool
  | [] => true
  | (.array a, .array b) :: rest =>
    if a = b ∨ (a, b) ∈ seen then h.equalAll seen rest
    else if (h.items a).size = (h.items b).size then
      h.equalAll ((a, b) :: seen) ((h.items a).toList.zip (h.items b).toList ++ rest)
    else false
  | (a, b) :: rest => a.sameRef b && h.equalAll seen rest
termination_by work => (unvisited h.arrayPairs seen, work.length)
decreasing_by
  · exact Prod.Lex.right _ (by simp)
  · rename_i new _
    by_cases known : (a, b) ∈ h.arrayPairs
    · exact Prod.Lex.left _ _ (unvisited_cons_lt known fun hs => new (.inr hs))
    · rw [unvisited_cons_of_not_mem _ known]
      have empty : h.items a = #[] ∨ h.items b = #[] := by
        rw [mem_arrayPairs, Classical.not_and_iff_not_or_not] at known
        exact known.imp items_eq_empty items_eq_empty
      have none : (h.items a).toList.zip (h.items b).toList = [] := by
        rcases empty with e | e <;> simp [e]
      exact Prod.Lex.right _ (by simp [none])
  · exact Prod.Lex.right _ (by simp)

/-- Whether two values are equal. -/
def equal (h : Heap) (a b : Value) : Bool := h.equalAll [] [(a, b)]

/-- Whether two arrays have equal items. They are compared item by item even if they are the same
array. -/
def equalItems (h : Heap) (a b : ArrayRef) : Bool :=
  (h.items a).size == (h.items b).size &&
    h.equalAll [] ((h.items a).toList.zip (h.items b).toList)

end Heap

end PlotMachine
