import Std.Data.TreeMap
import PlotMachine.Frame.Arena
import PlotMachine.Frame.Pool
import PlotMachine.Heap

/-!
# Lifetimes of frames

An object is in use as long as something holds it: the stack, a running call, the host, or another
object that is in use. Objects that hold each other in a circle therefore stay in use for good. When
a frame falls out of use its buffer goes to the frame pool.

Most frames are private to the call they were made for and fall out of use when it returns. A frame
that was handed out is *shared* and has to be watched. While something is watched, `Keeper.letGo`
keeps a list of the values that lost a holder. `Keeper.settle` goes through this list: it counts how
often each object is held, takes away the holders that are gone, one after the other, and follows
what an object held when its last holder goes. What an object held is let go before the object
itself. So frames fall out of use in the order in which their last holders went, which decides whose
buffers a pool with little room keeps.

Nothing here changes the heap, and nothing that a program can observe depends on it.
-/

namespace PlotMachine

/-- The objects a callable holds. A thunk lets go of its callable before its argument. -/
def Callable.references : Callable → List Object
  | .function _ _ (some f) => [.frame f]
  | .thunk _ func arg => func.references ++ ofArgument arg
  | _ => []
where
  /-- The objects the argument of a thunk holds. -/
  ofArgument : Value → List Object
    | .array a => [.array a]
    | .record i => [.record i]
    | .frame f => [.frame f]
    | .callable c => c.references
    | _ => []

/-- The objects a value holds. -/
def Value.references (v : Value) : List Object := Callable.references.ofArgument v

/-- The objects an object holds. -/
def Heap.references (h : Heap) (o : Object) : List Object :=
  (h.contents o).toList.flatMap Value.references

/-- How a frame is used. -/
inductive FrameStatus where
  /-- Only by the call it was made for. -/
  | owned
  /-- By anyone it was handed to. -/
  | shared
  /-- No longer. -/
  | released
  deriving DecidableEq, Repr, Inhabited

/-- Whether a frame is in use, given the status of each frame. -/
def FrameStatus.inUse (status : Array FrameStatus) (f : FrameRef) : Bool :=
  status[f.index]?.getD .owned != .released

/-- What is known about the use of frames. -/
structure Keeper where
  pool : Pool := {}
  arena : Arena := {}
  /-- The status of each frame of the heap. -/
  status : Array FrameStatus := #[]
  /-- The objects that may have fallen out of use. -/
  watched : Array Object := #[]
  /-- The arrays below this number are watched or known to be out of use. -/
  arraysSeen : Nat := 0
  /-- The same for instances. -/
  instancesSeen : Nat := 0
  /-- The values that the host holds. -/
  pins : List Value := []
  /-- The values that lost a holder since the last settlement, the first one first. -/
  dropped : Array Value := #[]
  deriving Inhabited

/-- A number for each object of the heap. -/
def Object.number : Object → Nat
  | .array a => 3 * a.index
  | .record i => 3 * i.index + 1
  | .frame f => 3 * f.index + 2

/-- How often objects are held, and which ones were found out of use. -/
structure Census where
  /-- How often objects are held, by their numbers. -/
  held : Std.TreeMap Nat Nat := {}
  /-- The frames out of use, the last one first. -/
  buried : List FrameRef := []

namespace Census

/-- How often an object is held. -/
def holders (c : Census) (o : Object) : Nat := c.held.getD o.number 0

/-- Notes how often an object is held. -/
def setHolders (c : Census) (o : Object) (n : Nat) : Census :=
  { c with held := c.held.insert o.number n }

/-- Counts one more holder of each of the objects. -/
def count (c : Census) (objects : List Object) : Census :=
  objects.foldl (fun c o => c.setHolders o (c.holders o + 1)) c

/-- The steps of letting go of objects. -/
inductive Errand where
  /-- A holder of the object is gone. -/
  | letGo (o : Object)
  /-- Everything the object held was let go. -/
  | bury (o : Object)

/-- Lets go of everything an object holds and then of the object. -/
def errands (h : Heap) (o : Object) : List Errand :=
  (h.references o).map .letGo ++ [.bury o]

/-- Runs errands. An object is buried once, so the fuel need not exceed the errands there are at
first and those for all watched objects. -/
def run (h : Heap) : Nat → List Errand → Census → Census
  | 0, _, c => c
  | _, [], c => c
  | fuel + 1, .bury (.frame f) :: rest, c => run h fuel rest { c with buried := f :: c.buried }
  | fuel + 1, .bury _ :: rest, c => run h fuel rest c
  | fuel + 1, .letGo o :: rest, c =>
    let n := c.holders o
    let c := c.setHolders o (n - 1)
    if n = 1 then run h fuel (errands h o ++ rest) c else run h fuel rest c

end Census

namespace Keeper

/-- Whether a frame is in use, as far as is known. -/
def inUse (k : Keeper) (f : FrameRef) : Bool := FrameStatus.inUse k.status f

/-- Enters a frame in the arena. -/
def register (k : Keeper) (f : FrameRef) : Keeper :=
  { k with arena := k.arena.register (FrameStatus.inUse k.status) f }

/-- Notes a new frame of the heap. -/
def enter (k : Keeper) (status : FrameStatus) (f : FrameRef) : Keeper :=
  { k with
    status := k.status.push status
    watched := if status = .shared then k.watched.push (.frame f) else k.watched }

/-- Notes that a frame is handed out. -/
def share (k : Keeper) (f : FrameRef) : Keeper :=
  if k.status[f.index]? = some .owned then
    { k with
      status := k.status.setIfInBounds f.index .shared
      watched := k.watched.push (.frame f) }
  else k

/-- Notes that a frame fell out of use, and parks its buffer. -/
def release (k : Keeper) (h : Heap) (f : FrameRef) : Keeper :=
  { k with
    status := k.status.setIfInBounds f.index .released
    pool := k.pool.give (h.slots f) }

/-- Whether there is nothing to watch. -/
def idle (k : Keeper) : Bool := k.watched.isEmpty

/-- Notes that a value lost a holder. Nothing depends on it while there is nothing to watch. -/
def letGo (k : Keeper) (v : Value) : Keeper :=
  if k.idle || v.references.isEmpty then k else { k with dropped := k.dropped.push v }

/-- Nothing is noted while there is nothing to watch. -/
theorem letGo_of_idle {k : Keeper} (idle : k.idle) (v : Value) : k.letGo v = k := by
  rw [letGo, idle, Bool.true_or, if_pos rfl]

/-- Nothing is noted of any number of values while there is nothing to watch. -/
theorem foldl_letGo_of_idle {k : Keeper} (idle : k.idle) (values : List Value) :
    values.foldl letGo k = k := by
  induction values with
  | nil => rfl
  | cons v rest ih => rw [List.foldl_cons, letGo_of_idle idle, ih]

/-- The objects to examine: those watched and all arrays and instances that are new. -/
def candidates (k : Keeper) (h : Heap) : Array Object :=
  k.watched
    ++ (Array.range (h.arrays.size - k.arraysSeen)).map (.array ⟨k.arraysSeen + ·⟩)
    ++ (Array.range (h.instances.size - k.instancesSeen)).map (.record ⟨k.instancesSeen + ·⟩)

/-- Lets go of the holders that are gone, in order, and then of the watched objects that never had
one. The roots are the objects held by something that is not an object to watch. -/
def census (k : Keeper) (h : Heap) (roots : List Object) : Census :=
  let candidates := k.candidates h
  let dropped := k.dropped.toList.flatMap Value.references
  let counted := candidates.foldl (fun c o => c.count (h.references o))
    (({} : Census).count (roots ++ dropped))
  let free := candidates.toList.filter fun o => counted.holders o == 0
  let fuel := candidates.foldl (fun n o => n + (h.references o).length + 2) (dropped.length + 1)
  Census.run h fuel (dropped.map .letGo ++ free.flatMap (Census.errands h)) counted

/-- Releases the watched frames that nothing holds any more. -/
def settle (k : Keeper) (h : Heap) (roots : List Object) : Keeper :=
  let c := k.census h roots
  let k := c.buried.reverse.foldl (fun k f => k.release h f) k
  { k with
    watched := (k.candidates h).filter fun o => c.holders o != 0
    arraysSeen := h.arrays.size
    instancesSeen := h.instances.size
    dropped := #[] }

end Keeper

end PlotMachine
