import PlotMachine.Heap
import PlotMachine.Store
import PlotMachine.Unvisited

/-!
# The text of a value

What a program prints. An array is printed as its items in brackets. Arrays may contain themselves,
so the printer carries the arrays it is inside of; an array that is among them is printed as
`[...]`. Every other array is printed in full, however often it occurs.
-/

namespace PlotMachine

namespace Store

/-- A callable in words. -/
def describe (s : Store) : Callable → String
  | .function _ body _ => "function " ++ (s.lambda body).displayName
  | .native _ fn => "native " ++ fn.name
  | .thunk _ func _ => "thunk of " ++ s.describe func
  | .undefined => "undefined function"

/-- The name of the record type of an instance. -/
def instanceName (s : Store) (h : Heap) (i : InstanceRef) : String :=
  match h.instance? i with
  | some x => (s.record x.record).displayName
  | none => "<record>"

/-- The text of a value that is not an array. -/
def plainText (s : Store) (h : Heap) : Value → String
  | .nil => "nil"
  | .bool b => if b then "true" else "false"
  | .int n => toString n.toInt
  | .real x => realText x
  | .str t => t
  | .array _ => ""
  | .record i => s!"<record {s.instanceName h i}>"
  | .callable c => s!"<{s.describe c}>"
  | .frame f => s!"<frame {(h.slots f).size}>"
  | .lambda l => s!"<lambda {(s.lambda l).displayName}>"
  | .label l => s!"<label @{l.offset}>"

end Store

namespace Heap

/-- All arrays of the heap. -/
def arrayRefs (h : Heap) : List ArrayRef := (List.range h.arrays.size).map (⟨·⟩)

/-- An array of the heap is among all of them. -/
theorem mem_arrayRefs {h : Heap} {a : ArrayRef} : a ∈ h.arrayRefs ↔ a.index < h.arrays.size := by
  simp only [arrayRefs, List.mem_map, List.mem_range]
  exact ⟨fun ⟨_, hi, e⟩ => e ▸ hi, fun hi => ⟨a.index, hi, rfl⟩⟩

/-- An array that is not of the heap has no items. -/
theorem items_eq_empty {h : Heap} {a : ArrayRef} (out : a ∉ h.arrayRefs) : h.items a = #[] := by
  have : h.arrays.size ≤ a.index := by simpa [mem_arrayRefs] using out
  simp [items, Array.getElem?_eq_none this]

end Heap

namespace Store

/-- The text of a value inside the arrays `inside`. -/
def textInside (s : Store) (h : Heap) (inside : List ArrayRef) : Value → String
  | .array a =>
    if a ∈ inside then "[...]"
    else if a.index < h.arrays.size then
      "[" ++ ", ".intercalate ((h.items a).toList.map (textInside s h (a :: inside) ·)) ++ "]"
    else "[]"
  | v => s.plainText h v
termination_by unvisited h.arrayRefs inside
decreasing_by exact unvisited_cons_lt (Heap.mem_arrayRefs.2 ‹_›) ‹a ∉ inside›

/-- The text of a value. -/
def text (s : Store) (h : Heap) (v : Value) : String := s.textInside h [] v

end Store

end PlotMachine
