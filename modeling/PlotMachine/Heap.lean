import PlotMachine.Fault

/-!
# The heap

Arrays, record instances and frames are objects of the heap: sequences of values that are shared by
reference and changed in place. Objects are only ever added. An array can grow; an instance and a
frame keep the length they were made with.

The heap says nothing about which objects are still in use; that is the business of
`PlotMachine.Lifetime`, and no result depends on it.
-/

namespace PlotMachine

/-- A reference to any object of the heap. -/
inductive Object where
  | array (a : ArrayRef)
  | record (i : InstanceRef)
  | frame (f : FrameRef)
  deriving DecidableEq, Repr, Inhabited, Hashable

/-- What an index into an object counts, as messages call it. Fields are stored as an array. -/
def Object.area : Object → Area
  | .array _ | .record _ => .array
  | .frame _ => .frame

/-- The object a value refers to. -/
def Value.object? : Value → Option Object
  | .array a => some (.array a)
  | .record i => some (.record i)
  | .frame f => some (.frame f)
  | _ => none

/-- An instance of a record type. -/
structure Instance where
  record : RecordRef
  fields : Array Value
  deriving Inhabited

/-- All objects, and the number that the next callable gets. -/
structure Heap where
  arrays : Array (Array Value) := #[]
  instances : Array Instance := #[]
  frames : Array (Array Value) := #[]
  nextCallable : Nat := 0
  deriving Inhabited

namespace Heap

/-- The items of an array. -/
def items (h : Heap) (a : ArrayRef) : Array Value := h.arrays[a.index]?.getD #[]

/-- The slots of a frame. -/
def slots (h : Heap) (f : FrameRef) : Array Value := h.frames[f.index]?.getD #[]

/-- An instance. -/
def instance? (h : Heap) (i : InstanceRef) : Option Instance := h.instances[i.index]?

/-- The fields of an instance. -/
def fields (h : Heap) (i : InstanceRef) : Array Value := ((h.instance? i).map (·.fields)).getD #[]

/-- The values an object holds. -/
def contents (h : Heap) : Object → Array Value
  | .array a => h.items a
  | .record i => h.fields i
  | .frame f => h.slots f

/-- The fault of an index that is out of the bounds of an object. -/
def outOfBounds (h : Heap) (o : Object) (index : Nat) : Fault :=
  .indexOutOfBounds o.area index (h.contents o).size

/-- Reads one value of an object. -/
def get (h : Heap) (o : Object) (index : Nat) : Except Fault Value :=
  match (h.contents o)[index]? with
  | some v => .ok v
  | none => .error (h.outOfBounds o index)

/-- Changes the contents of an object. -/
def update (h : Heap) (o : Object) (f : Array Value → Array Value) : Heap :=
  match o with
  | .array a => { h with arrays := h.arrays.modify a.index f }
  | .record i =>
    { h with instances := h.instances.modify i.index fun x => { x with fields := f x.fields } }
  | .frame r => { h with frames := h.frames.modify r.index f }

/-- Writes one value of an object. An index that is out of bounds changes nothing. -/
def put (h : Heap) (o : Object) (index : Nat) (v : Value) : Heap :=
  h.update o (·.setIfInBounds index v)

/-- Adds an array. -/
def addArray (h : Heap) (items : Array Value) : ArrayRef × Heap :=
  (⟨h.arrays.size⟩, { h with arrays := h.arrays.push items })

/-- Adds an instance of a record type, with every field nil. -/
def addInstance (h : Heap) (record : RecordRef) (size : Nat) : InstanceRef × Heap :=
  (⟨h.instances.size⟩,
    { h with instances := h.instances.push ⟨record, Array.replicate size .nil⟩ })

/-- Adds a frame. -/
def addFrame (h : Heap) (slots : Array Value) : FrameRef × Heap :=
  (⟨h.frames.size⟩, { h with frames := h.frames.push slots })

/-- Appends to an array. -/
def append (h : Heap) (a : ArrayRef) (v : Value) : Heap :=
  { h with arrays := h.arrays.modify a.index (·.push v) }

/-- Sets every slot of a frame to nil. -/
def clearFrame (h : Heap) (f : FrameRef) : Heap :=
  h.update (.frame f) fun slots => Array.replicate slots.size .nil

/-- Takes a number for a new callable. -/
def takeNumber (h : Heap) : Nat × Heap :=
  (h.nextCallable, { h with nextCallable := h.nextCallable + 1 })

/-! ## What the operations do to the contents of objects -/

/-- A new array has the given items. -/
@[simp] theorem items_addArray (h : Heap) (items : Array Value) :
    (h.addArray items).2.items (h.addArray items).1 = items := by
  simp [addArray, Heap.items]

/-- A new frame has the given slots. -/
@[simp] theorem slots_addFrame (h : Heap) (slots : Array Value) :
    (h.addFrame slots).2.slots (h.addFrame slots).1 = slots := by
  simp [addFrame, Heap.slots]

/-- The other frames keep their slots when a frame is added. -/
theorem slots_addFrame_of_lt {h : Heap} {f : FrameRef} (old : f.index < h.frames.size)
    (slots : Array Value) : (h.addFrame slots).2.slots f = h.slots f := by
  have ne : f.index ≠ h.frames.size := Nat.ne_of_lt old
  simp [addFrame, Heap.slots, Array.getElem?_push, ne]

/-- A new instance has nil fields. -/
@[simp] theorem fields_addInstance (h : Heap) (record : RecordRef) (size : Nat) :
    (h.addInstance record size).2.fields (h.addInstance record size).1
      = Array.replicate size .nil := by
  simp [addInstance, Heap.fields, instance?]

/-- A change of one object leaves the others as they were. -/
theorem contents_update_of_ne (h : Heap) {o p : Object} (ne : o ≠ p)
    (f : Array Value → Array Value) : (h.update o f).contents p = h.contents p := by
  rcases o with ⟨⟨i⟩⟩ | ⟨⟨i⟩⟩ | ⟨⟨i⟩⟩ <;> rcases p with ⟨⟨j⟩⟩ | ⟨⟨j⟩⟩ | ⟨⟨j⟩⟩ <;>
    simp_all [update, contents, items, fields, instance?, slots, Array.getElem?_modify]

/-- Writing one value of an object writes it into the contents. -/
@[simp] theorem contents_put_self (h : Heap) (o : Object) (index : Nat) (v : Value) :
    (h.put o index v).contents o = (h.contents o).setIfInBounds index v := by
  cases o with
  | array a => cases found : h.arrays[a.index]? <;>
      simp [put, update, contents, items, Array.getElem?_modify, found]
  | record i => cases found : h.instances[i.index]? <;>
      simp [put, update, contents, fields, instance?, Array.getElem?_modify, found]
  | frame f => cases found : h.frames[f.index]? <;>
      simp [put, update, contents, slots, Array.getElem?_modify, found]

/-- Writing one value leaves the length of every object as it was. -/
@[simp] theorem size_contents_put (h : Heap) (o p : Object) (index : Nat) (v : Value) :
    ((h.put o index v).contents p).size = (h.contents p).size := by
  by_cases same : o = p
  · subst same
    rw [contents_put_self, Array.size_setIfInBounds]
  · rw [put, contents_update_of_ne h same]

end Heap

end PlotMachine
