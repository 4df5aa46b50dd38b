import PlotMachine.Lifetime
import PlotMachine.Stack

/-!
# The state of the machine

A `Machine` is everything a run can read or change: the stack, the heap, the global frame, the flag
by which the host interrupts a run, the text printed so far, and the record of which frames are in
use. `Exec` is the monad of computations on it; a failed computation keeps the changes made before
the failure.
-/

namespace PlotMachine

/-- The flag by which the host stops a run. It has an effect only while it is installed. -/
structure Interrupt where
  installed : Bool := false
  raised : Bool := false
  deriving DecidableEq, Repr, Inhabited

/-- The state of the machine. -/
structure Machine where
  stack : Stack
  heap : Heap := {}
  globals : FrameRef
  interrupt : Interrupt := {}
  /-- What was printed. -/
  output : String := ""
  keeper : Keeper := {}
  deriving Inhabited

namespace Machine

/-- Notes that a value lost a holder. -/
def letGo (m : Machine) (v : Value) : Machine :=
  if m.keeper.idle then m else { m with keeper := m.keeper.letGo v }

/-- Notes that values lost a holder, one after the other. -/
def letGoAll (m : Machine) (values : List Value) : Machine :=
  if m.keeper.idle then m else values.foldl letGo m

/-- Removes what lies above a height of the stack and lets go of it, from the bottom up. -/
def cutStack (m : Machine) (height : Nat) : Machine :=
  { m with stack := m.stack.truncate height }.letGoAll (m.stack.above height).toList

/-- Letting go of a value changes the account of frames and nothing else. -/
theorem letGo_eq (m : Machine) (v : Value) :
    m.letGo v = { m with keeper := m.keeper.letGo v } := by
  rw [letGo]
  split
  · next idle => rw [Keeper.letGo_of_idle idle]
  · rfl

/-- Letting go of values changes the account of frames and nothing else. -/
theorem letGoAll_eq (m : Machine) (values : List Value) :
    m.letGoAll values = { m with keeper := values.foldl Keeper.letGo m.keeper } := by
  have folded : values.foldl letGo m = { m with keeper := values.foldl Keeper.letGo m.keeper } := by
    induction values generalizing m with
    | nil => rfl
    | cons v rest ih => rw [List.foldl_cons, ih, letGo_eq, List.foldl_cons]
  rw [letGoAll]
  split
  · next idle => rw [Keeper.foldl_letGo_of_idle idle]
  · exact folded

/-- A cut leaves the stack up to the height it is made at. -/
@[simp] theorem stack_cutStack (m : Machine) (height : Nat) :
    (m.cutStack height).stack = m.stack.truncate height := by
  rw [cutStack, letGoAll_eq]

/-- A cut of the stack leaves the heap as it was. -/
@[simp] theorem heap_cutStack (m : Machine) (height : Nat) :
    (m.cutStack height).heap = m.heap := by
  rw [cutStack, letGoAll_eq]

/-- The objects held by the machine itself and by the host. -/
def ownRoots (m : Machine) : List Object :=
  .frame m.globals :: m.heap.references (.frame m.globals)
    ++ m.stack.values.toList.flatMap Value.references
    ++ m.keeper.pins.flatMap Value.references

/-- Releases the frames that nothing holds any more, where `held` are the objects held by what is
running. -/
def settle (m : Machine) (held : Heap → List Object) : Machine :=
  if m.keeper.idle then m
  else { m with keeper := m.keeper.settle m.heap (m.ownRoots ++ held m.heap) }

/-- How many entries of the machine's arena are still in use. -/
def liveFrames (m : Machine) : Nat :=
  (m.keeper.arena.live m.keeper.inUse).size

/-- Adds a frame with the given slots. -/
def addFrame (m : Machine) (status : FrameStatus) (slots : Array Value) : FrameRef × Machine :=
  let (f, heap) := m.heap.addFrame slots
  (f, { m with heap, keeper := m.keeper.enter status f })

/-- Makes a frame of the given length with every slot nil, in a pooled buffer if there is one. -/
def newFrame (m : Machine) (status : FrameStatus) (length : Nat) : FrameRef × Machine :=
  let (slots, pool) := m.keeper.pool.take length
  { m with keeper := { m.keeper with pool } }.addFrame status slots

/-- Enters a frame in the arena of the machine. -/
def register (m : Machine) (f : FrameRef) : Machine :=
  { m with keeper := m.keeper.register f }

end Machine

/-- Computations on the machine that may fail. -/
abbrev Exec := EStateM Failure Machine

namespace Exec

/-- Fails with a fault. -/
def fault {α : Type} (f : Fault) : Exec α := fun m => .error f m

/-- A computation that reads nothing and changes nothing. -/
def ofExcept {α : Type} : Except Fault α → Exec α
  | .ok a => pure a
  | .error f => fault f

/-- Reads something off the machine. -/
def view {α : Type} (f : Machine → α) : Exec α := fun m => .ok (f m) m

/-- Reads something off the machine, which may fail. -/
def inspect {α : Type} (f : Machine → Except Fault α) : Exec α := fun m =>
  match f m with
  | .ok a => .ok a m
  | .error e => .error e m

/-- Pushes a value. One that finds no room is let go. -/
def push (v : Value) : Exec Unit := fun m =>
  if m.stack.isFull then .error (Fault.stackOverflow m.stack.ceiling) (m.letGo v)
  else .ok () { m with stack := m.stack.push v }

/-- Pops a value. -/
def pop : Exec Value := fun m =>
  match m.stack.top? with
  | some v => .ok v { m with stack := m.stack.drop }
  | none => .error Fault.stackUnderflow m

/-- The top value. -/
def top : Exec Value := fun m =>
  match m.stack.top? with
  | some v => .ok v m
  | none => .error Fault.stackUnderflow m

/-- Pops a value for a computation and lets go of it when that is over, also when it failed. -/
@[inline] def taking {α : Type} (body : Value → Exec α) : Exec α := fun m =>
  match m.stack.top? with
  | some v =>
    match body v { m with stack := m.stack.drop } with
    | .ok a m => .ok a (m.letGo v)
    | .error f m => .error f (m.letGo v)
  | none => .error Fault.stackUnderflow m

/-- Pops a value and reads its data. The value is gone even if it is of another kind. -/
def popAs (α : Type) [Payload α] : Exec α := taking fun v => ofExcept v.read

/-- Pops a value for a computation on its data. -/
@[inline] def takingAs {α β : Type} [Payload α] (body : α → Exec β) : Exec β :=
  taking fun v => do body (← ofExcept v.read)

/-- Pushes a value that carries the given data. -/
def pushData {α : Type} [Payload α] (a : α) : Exec Unit := push (Payload.toValue a)

/-- Replaces the top value. -/
def setTop (v : Value) : Exec Unit := fun m =>
  match m.stack.top? with
  | some old => .ok () ({ m with stack := m.stack.setTop v }.letGo old)
  | none => .error Fault.stackUnderflow m

/-- Reads a value of an object. -/
def get (o : Object) (index : Nat) : Exec Value := inspect (·.heap.get o index)

/-- Writes a value of an object. -/
def put (o : Object) (index : Nat) (v : Value) : Exec Unit := fun m =>
  match m.heap.get o index with
  | .ok old => .ok () ({ m with heap := m.heap.put o index v }.letGo old)
  | .error e => .error e m

/-- Makes an array. -/
def newArray (items : Array Value) : Exec ArrayRef := fun m =>
  let (a, heap) := m.heap.addArray items
  .ok a { m with heap }

/-- Makes a callable, which gets a number of its own. -/
def newCallable (make : Nat → Callable) : Exec Callable := fun m =>
  let (id, heap) := m.heap.takeNumber
  .ok (make id) { m with heap }

/-- Fails if the host wants the run to stop. -/
def poll : Exec Unit := fun m =>
  if m.interrupt.installed && m.interrupt.raised then .error Fault.interrupted m else .ok () m

end Exec

end PlotMachine
