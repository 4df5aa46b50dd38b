import Mathlib.Data.Nat.Basic
import PlotMachine.Heap

/-!
# Growth of the heap

`Heap.Extends` is what no operation on the heap violates: objects are never removed, a frame keeps its
length, an instance keeps its record type and the number of its fields, and an array never becomes
shorter. The lemmas below say so of every operation, and say what each of them does to the contents
of all objects.
-/

namespace PlotMachine

namespace Heap

/-- An object belongs to a heap. -/
def Has (h : Heap) : Object → Prop
  | .array a => a.index < h.arrays.size
  | .record i => i.index < h.instances.size
  | .frame f => f.index < h.frames.size

instance (h : Heap) : (o : Object) → Decidable (h.Has o)
  | .array a => inferInstanceAs (Decidable (a.index < h.arrays.size))
  | .record i => inferInstanceAs (Decidable (i.index < h.instances.size))
  | .frame f => inferInstanceAs (Decidable (f.index < h.frames.size))

/-- The second heap comes from the first one by operations that keep the shape of objects. -/
structure Extends (h h' : Heap) : Prop where
  has : ∀ o, h.Has o → h'.Has o
  array : ∀ a, (h.items a).size ≤ (h'.items a).size
  record : ∀ i x, h.instance? i = some x →
    ∃ fields, h'.instance? i = some ⟨x.record, fields⟩ ∧ fields.size = x.fields.size
  frame : ∀ f, h.Has (.frame f) → (h'.slots f).size = (h.slots f).size

namespace Extends

/-- A heap extends itself. -/
theorem refl (h : Heap) : h.Extends h where
  has _ held := held
  array _ := Nat.le_refl _
  record _ x found := ⟨x.fields, found, rfl⟩
  frame _ _ := rfl

/-- Growth goes on. -/
theorem trans {h h' h'' : Heap} (first : h.Extends h') (second : h'.Extends h'') :
    h.Extends h'' where
  has o held := second.has o (first.has o held)
  array a := Nat.le_trans (first.array a) (second.array a)
  record i x found := by
    obtain ⟨fields, found', size⟩ := first.record i x found
    obtain ⟨fields', found'', size'⟩ := second.record i _ found'
    exact ⟨fields', found'', size'.trans size⟩
  frame f held := (second.frame f (first.has _ held)).trans (first.frame f held)

/-- Every heap extends the empty one. -/
theorem of_empty (h : Heap) : ({} : Heap).Extends h where
  has o held := by cases o <;> exact absurd held (Nat.not_lt_zero _)
  array a := by simp [items]
  record i x found := by simp [instance?] at found
  frame f held := absurd held (Nat.not_lt_zero _)

end Extends

/-- An object that does not belong to a heap has no contents. -/
theorem contents_eq_empty {h : Heap} {o : Object} (new : ¬ h.Has o) : h.contents o = #[] := by
  cases o with
  | array a => simp [contents, items, Array.getElem?_eq_none (Nat.le_of_not_lt new)]
  | record i => simp [contents, fields, instance?, Array.getElem?_eq_none (Nat.le_of_not_lt new)]
  | frame f => simp [contents, slots, Array.getElem?_eq_none (Nat.le_of_not_lt new)]

/-! ## Adding objects -/

section Adding

variable (h : Heap)

/-- An object that is added is new. -/
theorem not_has_addArray (items : Array Value) : ¬ h.Has (.array (h.addArray items).1) :=
  Nat.lt_irrefl _

theorem not_has_addInstance (r : RecordRef) (size : Nat) :
    ¬ h.Has (.record (h.addInstance r size).1) :=
  Nat.lt_irrefl _

theorem not_has_addFrame (slots : Array Value) : ¬ h.Has (.frame (h.addFrame slots).1) :=
  Nat.lt_irrefl _

/-- Adding an array leaves the contents of all other objects as they were. -/
theorem contents_addArray (items : Array Value) (o : Object) :
    (h.addArray items).2.contents o
      = if o = .array (h.addArray items).1 then items else h.contents o := by
  rcases o with ⟨⟨i⟩⟩ | i | f
  · by_cases new : i = h.arrays.size
    · subst new
      simp [addArray, contents, Heap.items]
    · simp [addArray, contents, Heap.items, Array.getElem?_push, new]
  · simp [addArray, contents, fields, instance?]
  · simp [addArray, contents, slots]

/-- Adding an instance leaves the contents of all other objects as they were. -/
theorem contents_addInstance (r : RecordRef) (size : Nat) (o : Object) :
    (h.addInstance r size).2.contents o
      = if o = .record (h.addInstance r size).1 then Array.replicate size .nil
        else h.contents o := by
  rcases o with a | ⟨⟨i⟩⟩ | f
  · simp [addInstance, contents, items]
  · by_cases new : i = h.instances.size
    · subst new
      simp [addInstance, contents, fields, instance?]
    · simp [addInstance, contents, fields, instance?, Array.getElem?_push, new]
  · simp [addInstance, contents, slots]

/-- Adding a frame leaves the contents of all other objects as they were. -/
theorem contents_addFrame (slots : Array Value) (o : Object) :
    (h.addFrame slots).2.contents o
      = if o = .frame (h.addFrame slots).1 then slots else h.contents o := by
  rcases o with a | i | ⟨⟨f⟩⟩
  · simp [addFrame, contents, items]
  · simp [addFrame, contents, fields, instance?]
  · by_cases new : f = h.frames.size
    · subst new
      simp [addFrame, contents, Heap.slots]
    · simp [addFrame, contents, Heap.slots, Array.getElem?_push, new]

/-- Filling a frame that was just added is the same as adding it filled. -/
theorem update_addFrame (slots : Array Value) (f : Array Value → Array Value) :
    (h.addFrame slots).2.update (.frame (h.addFrame slots).1) f = (h.addFrame (f slots)).2 := by
  have filled : (h.frames.push slots).modify h.frames.size f = h.frames.push (f slots) := by
    apply Array.ext_getElem?
    intro i
    rw [Array.getElem?_modify]
    by_cases new : i = h.frames.size
    · subst new
      simp
    · simp [Array.getElem?_push, new, Ne.symm new]
  simp only [addFrame, update, filled]

theorem extends_addArray (items : Array Value) : h.Extends (h.addArray items).2 where
  has o held := by
    cases o with
    | array a => exact Nat.lt_of_lt_of_le held (by simp [addArray])
    | record i => exact held
    | frame f => exact held
  array a := by
    rcases a with ⟨i⟩
    by_cases new : i = h.arrays.size
    · subst new
      simp [addArray, Heap.items]
    · simp [addArray, Heap.items, Array.getElem?_push, new]
  record _ x found := ⟨x.fields, found, rfl⟩
  frame _ _ := rfl

theorem extends_addInstance (r : RecordRef) (size : Nat) :
    h.Extends (h.addInstance r size).2 where
  has o held := by
    cases o with
    | array a => exact held
    | record i => exact Nat.lt_of_lt_of_le held (by simp [addInstance])
    | frame f => exact held
  array _ := Nat.le_refl _
  record i x found := by
    have old : i.index < h.instances.size := (Array.getElem?_eq_some_iff.1 found).1
    refine ⟨x.fields, ?_, rfl⟩
    simpa [addInstance, instance?, Array.getElem?_push, Nat.ne_of_lt old] using found
  frame _ _ := rfl

theorem extends_addFrame (slots : Array Value) : h.Extends (h.addFrame slots).2 where
  has o held := by
    cases o with
    | array a => exact held
    | record i => exact held
    | frame f => exact Nat.lt_of_lt_of_le held (by simp [addFrame])
  array _ := Nat.le_refl _
  record _ x found := ⟨x.fields, found, rfl⟩
  frame f held := by rw [slots_addFrame_of_lt held]

end Adding

/-! ## Changing objects -/

/-- Writing one value of an object leaves the contents of all others as they were. -/
theorem contents_put (h : Heap) (o p : Object) (index : Nat) (v : Value) :
    (h.put o index v).contents p
      = if p = o then (h.contents o).setIfInBounds index v else h.contents p := by
  by_cases same : p = o
  · subst same
    rw [if_pos rfl, contents_put_self]
  · rw [if_neg same, put, contents_update_of_ne h (Ne.symm same)]

/-- Appending to an array leaves the contents of all other objects as they were. -/
theorem contents_append (h : Heap) (a : ArrayRef) (v : Value) (o : Object) :
    (h.append a v).contents o
      = if o = .array a ∧ h.Has o then (h.contents o).push v else h.contents o := by
  rcases o with ⟨⟨i⟩⟩ | i | f
  · rcases a with ⟨j⟩
    by_cases same : i = j
    · subst same
      simp only [append, contents, items, Has, Array.getElem?_modify, true_and, if_true]
      by_cases old : i < h.arrays.size
      · simp [old]
      · simp [old]
    · simp [append, contents, items, Array.getElem?_modify, same, Ne.symm same]
  · simp [append, contents, fields, instance?]
  · simp [append, contents, slots]

theorem extends_put (h : Heap) (o : Object) (index : Nat) (v : Value) :
    h.Extends (h.put o index v) where
  has p held := by cases o <;> cases p <;> simpa [put, update, Has] using held
  array a := Nat.le_of_eq (size_contents_put h o (.array a) index v).symm
  record i x found := by
    cases o with
    | array a => exact ⟨x.fields, found, rfl⟩
    | frame f => exact ⟨x.fields, found, rfl⟩
    | record j =>
      by_cases same : j.index = i.index
      · refine ⟨x.fields.setIfInBounds index v, ?_, by simp⟩
        simp only [instance?] at found
        simp [put, update, instance?, Array.getElem?_modify, same, found]
      · refine ⟨x.fields, ?_, rfl⟩
        simp only [instance?] at found
        simp [put, update, instance?, Array.getElem?_modify, same, found]
  frame f _ := size_contents_put h o (.frame f) index v

theorem extends_append (h : Heap) (a : ArrayRef) (v : Value) : h.Extends (h.append a v) where
  has o held := by cases o <;> simpa [append, Has] using held
  array b := by
    have step := contents_append h a v (.array b)
    simp only [contents] at step
    rw [step]
    split <;> simp
  record _ x found := ⟨x.fields, found, rfl⟩
  frame _ _ := rfl

theorem extends_takeNumber (h : Heap) : h.Extends h.takeNumber.2 where
  has o held := by cases o <;> exact held
  array _ := Nat.le_refl _
  record _ x found := ⟨x.fields, found, rfl⟩
  frame _ _ := rfl

@[simp] theorem contents_takeNumber (h : Heap) (o : Object) :
    h.takeNumber.2.contents o = h.contents o := by
  cases o <;> rfl

end Heap

end PlotMachine
