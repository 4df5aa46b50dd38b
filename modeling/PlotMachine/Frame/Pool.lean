import PlotMachine.Value

/-!
# The frame pool

Every call needs a frame. When a frame is no longer used its buffer is emptied and parked, and the
next frame of the same length is built in it. The pool keeps at most `limit` buffers.

The count of parked buffers is stored beside them, so that it can be read off at once.
-/

namespace PlotMachine

/-- A buffer waiting to be reused, filed under the length of the frame it came from. -/
structure ParkedBuffer where
  length : Nat
  buffer : Array Value

/-- The buffers that are parked, the last one first, and their number. -/
structure Pool where
  parked : List ParkedBuffer := []
  count : Nat := 0
  limit : Nat := 256

instance : Inhabited Pool := ⟨{}⟩

/-- A buffer cut or filled up with nil to a length. -/
def resize (buffer : Array Value) (length : Nat) : Array Value :=
  buffer.take length ++ Array.replicate (length - buffer.size) .nil

/-- A resized buffer has the length asked for. -/
@[simp] theorem size_resize (buffer : Array Value) (length : Nat) :
    (resize buffer length).size = length := by
  simp only [resize, Array.size_append, Array.take_eq_extract, Array.size_extract,
    Array.size_replicate]
  omega

/-- An empty buffer is filled up with nil. -/
@[simp] theorem resize_empty (length : Nat) : resize #[] length = Array.replicate length .nil := by
  simp [resize]

namespace Pool

/-- The slots for a frame of the given length, in the buffer that was parked last under that length
or in a new one. Whether there is the capacity for a new one is looked at before (`Env.entryFits`). -/
def take (p : Pool) (length : Nat) : Array Value × Pool :=
  match p.parked.find? (·.length == length) with
  | some found =>
    (resize found.buffer length,
      { p with parked := p.parked.eraseP (·.length == length), count := p.count - 1 })
  | none => (Array.replicate length .nil, p)

/-- The slots for a frame are as many as were asked for. -/
@[simp] theorem size_take (p : Pool) (length : Nat) : (p.take length).1.size = length := by
  unfold take
  split <;> simp

/-- Parks the buffer of a frame that is no longer used, if there is room. -/
def give (p : Pool) (slots : Array Value) : Pool :=
  if p.count < p.limit then
    { p with parked := ⟨slots.size, slots.take 0⟩ :: p.parked, count := p.count + 1 }
  else p

/-- Changes the limit. A pool that holds more than the new limit is emptied. -/
def setLimit (p : Pool) (limit : Nat) : Pool :=
  if limit < p.count then { limit } else { p with limit }

end Pool

end PlotMachine
