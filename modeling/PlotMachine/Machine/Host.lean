import PlotMachine.Machine.Run
import PlotMachine.Settings

/-!
# Calls from the host

How the host makes a machine, calls into it, and tears it down. A call that fails leaves the stack as
it was, whatever the code did; a call that succeeds hands over what the code left on it.
-/

namespace PlotMachine

namespace Machine

/-- A machine with an empty stack and no globals. -/
def new (settings : Settings) : Machine :=
  let keeper : Keeper := { pool := ({} : Pool).setLimit settings.poolLimit }
  let m : Machine := { stack := { maxDepth := settings.maxCallDepth }, globals := ⟨0⟩, keeper }
  (m.newFrame .owned 0).2

/-- Notes a value that the host holds besides those it held before. -/
def hold (m : Machine) (v : Value) : Machine :=
  { m with keeper := { m.keeper with pins := v :: m.keeper.pins } }

/-- Notes what the host holds. -/
def pin (m : Machine) (values : List Value) : Machine :=
  { m with keeper := { m.keeper with pins := values } }

/-- Releases the frames that nothing holds any more, while nothing runs. -/
def settled (m : Machine) : Machine := m.settle fun _ => []

/-- Makes a frame of nil slots for the host. -/
def hostFrame (m : Machine) (length : Nat) : FrameRef × Machine :=
  m.settled.newFrame .shared length

/-- Makes a frame of given values for the host. -/
def frameOf (m : Machine) (slots : Array Value) : FrameRef × Machine := m.addFrame .shared slots

/-- Makes a frame the global one. -/
def setGlobals (m : Machine) (f : FrameRef) : Machine :=
  let m := m.settled.register f
  { m with globals := f, keeper := m.keeper.share m.globals }.letGo (.frame m.globals)

/-- Makes a new frame of nil slots the global one. -/
def initGlobals (m : Machine) (length : Nat) : FrameRef × Machine :=
  let (f, m) := m.settled.newFrame .owned length
  (f, m.setGlobals f)

/-- Writes a slot of a frame and lets go of what was in it. -/
def setSlot (m : Machine) (f : FrameRef) (slot : Nat) (v : Value) : Machine :=
  match Exec.put (.frame f) slot v m with
  | .ok _ m | .error _ m => m

/-- Sets every slot of a frame to nil and lets go of what it held. -/
def clearFrame (m : Machine) (f : FrameRef) : Machine :=
  { m with heap := m.heap.clearFrame f }.letGoAll (m.heap.slots f).toList

/-- Clears frames one after the other. All of them are in use until the last one is cleared. -/
def clearFrames (m : Machine) (frames : Array FrameRef) : Machine :=
  (frames.foldl clearFrame m).letGoAll (frames.toList.map .frame)

/-- Clears every frame of an arena that is still in use, and empties the arena. Answers how many there
were. -/
def sweep (m : Machine) (a : Arena) : Nat × Arena × Machine :=
  let live := a.live m.keeper.inUse
  (live.size, {}, m.clearFrames live)

/-- Empties the stack and sweeps the arena of the machine. Answers how many frames were cleared. -/
def reset (m : Machine) : Nat × Machine :=
  let m := m.cutStack 0
  let m := { m with stack := { m.stack with depth := 0 } }.settled
  let (cleared, arena, m) := m.sweep m.keeper.arena
  (cleared, { m with keeper := { m.keeper with arena } })

end Machine

/-- Pops a value that has to be an instance, and removes what else lies above a height of the stack. The
stack is cut before the kind of the value is looked at. -/
def Exec.popInstance (height : Nat) : Exec InstanceRef :=
  taking fun v => do
    modify (·.cutStack height)
    ofExcept v.read

namespace Env

/-- Puts the present values of the stack out of reach and pushes the arguments of a call. -/
def started (args : List Value) (m : Machine) : EStateM.Result Failure Machine Unit :=
  args.foldlM (fun (_ : Unit) v => Exec.push v) () { m with stack := m.stack.raiseFloor }

/-- Gives the stack back the limits that it had before a call. If the call failed, what is above the
values that were there is removed. -/
def restored (before : Stack) : Except Failure Unit × Machine → Except Failure Unit × Machine
  | (.ok (), m) => (.ok (), { m with stack := { m.stack with floor := before.floor } })
  | (.error f, m) =>
    let m := m.cutStack before.height
    (.error f, { m with stack := { m.stack with
      floor := before.floor, ceiling := before.ceiling, depth := before.depth } })

/-- Takes what a call left above a height off the stack, bottom first. -/
def handedOver (base : Nat) :
    Except Failure Unit × Machine → Except Failure (Array Value) × Machine
  | (.ok (), m) => (.ok (m.stack.above base), { m with stack := m.stack.truncate base })
  | (.error f, m) => (.error f, m)

/-- Runs the tasks of a call from the host. -/
def concluded (env : Env) (fuel : Nat) (tasks : List Task) (args : List Value) (m : Machine) :
    Option (Except Failure Unit × Machine) :=
  match started args m with
  | .ok () before => env.run fuel ⟨tasks, before⟩
  | .error f before => some (.error f, before)

/-- Runs tasks above the present values of the stack. If that fails, what is above them is removed
and the limits are restored. -/
def guarded (env : Env) (fuel : Nat) (tasks : List Task) (args : List Value) (m : Machine) :
    Option (Except Failure Unit × Machine) :=
  (env.concluded fuel tasks args m).map (restored m.stack)

/-- Calls a callable and answers what it left on the stack, bottom first. -/
def invoke (env : Env) (fuel : Nat) (c : Callable) (args : List Value) (m : Machine) :
    Option (Except Failure (Array Value) × Machine) :=
  (env.guarded fuel [.call c] args m).map (handedOver m.stack.height)

/-- Runs a lambda on exactly as many arguments as it takes. -/
def exec (env : Env) (fuel : Nat) (l : LambdaRef) (args : List Value) (m : Machine) :
    Option (Except Failure (Array Value) × Machine) :=
  let lambda := env.store.lambda l
  if args.length < lambda.params then some (.error Fault.stackUnderflow, m)
  else if lambda.params < args.length then
    some (.error (Fault.malformed
      (.tooManyArguments lambda.displayName lambda.params args.length)), m)
  else
    let (id, heap) := m.heap.takeNumber
    env.invoke fuel (.function id l none) args { m with heap }

/-- Makes and initialises an instance. -/
def instantiate (env : Env) (fuel : Nat) (r : RecordRef) (m : Machine) :
    Option (Except Failure InstanceRef × Machine) :=
  let base := m.stack.height
  (env.guarded fuel [.construct r] [] m).map fun
    | (.ok (), m) =>
      match Exec.popInstance base m with
      | .ok i m => (.ok i, m)
      | .error f m => (.error f, m)
    | (.error f, m) => (.error f, m)

end Env

end PlotMachine
