import PlotMachine.Library.Natives
import PlotMachine.Machine.Instr

/-!
# Runs

A run is a sequence of steps on a `Config`: the machine and a list of tasks, the innermost first.
An activation of a lambda is a task; so is an activation that waits for a call it made, a native that
runs or waits, and an instance that waits for its initialiser. A step works on the first task.

A failure unwinds the tasks. Every activation it passes is left as if it had returned, and the first
one that knows its source position puts it on the failure. A native that made a call is told of the
failure and goes on.

`run` makes as many steps as its fuel allows and answers nothing if they are not enough.
-/

namespace PlotMachine

/-- What a run reads and does not change: the code, and what host functions do. -/
structure Env where
  store : Store
  host : String → Routine Unit

/-- What a native does. -/
def Env.routine (env : Env) (fn : Native) : Routine Unit :=
  match fn.entry with
  | .library intrinsic => intrinsic.routine
  | .host key => env.host key

/-- Something that remains to be done. -/
inductive Task where
  /-- Call a callable on the arguments on the stack. -/
  | call (c : Callable)
  /-- Run a native that holds values. -/
  | native (r : Routine Unit) (taken : List Value)
  /-- Go on with a native that holds values once the callable it called is done. -/
  | handler (taken : List Value) (next : Except Failure Unit → Routine Unit)
  /-- Carry out the instruction an activation is at. -/
  | body (a : Activation)
  /-- Go on with an activation once what its instruction called is done. -/
  | waiting (a : Activation) (callee : Option Callable)
  /-- Make and initialise an instance. -/
  | construct (r : RecordRef)
  /-- Push an instance once its initialiser is done, in place of what that left above `base`. -/
  | constructed (i : InstanceRef) (base : Nat)

namespace Task

/-- The activation that a task belongs to. -/
def activation? : Task → Option Activation
  | .body a | .waiting a _ => some a
  | _ => none

/-- The objects that a task holds. -/
def references (h : Heap) : Task → List Object
  | .call c => c.references
  | .native _ taken | .handler taken _ => taken.flatMap Value.references
  | .construct _ => []
  | .body a => .frame a.frame :: h.references (.frame a.frame)
  | .waiting a callee =>
    .frame a.frame :: h.references (.frame a.frame) ++ (callee.map (·.references)).getD []
  | .constructed i _ => [.record i]

end Task

/-- A point of a run. -/
structure Config where
  /-- What remains to be done, the innermost task first. -/
  tasks : List Task
  machine : Machine

/-- The state of a run after a step. -/
inductive Status where
  | running (c : Config)
  | halted (outcome : Except Failure Unit) (m : Machine)

namespace Env

/-- The source position of the instruction an activation is at. -/
def position (env : Env) (a : Activation) : Position :=
  (env.store.lambda a.lambda).positions.positionAt a.offset

/-- The objects that tasks hold. -/
def held (tasks : List Task) (h : Heap) : List Object := tasks.flatMap (Task.references h)

/-- The fault that keeps a lambda from being entered, if there is one: its frame has no slots for all
that it has to hold, arguments are missing, or too many lambdas are running. The size of what the frame
has to hold is a word. -/
def barrier (env : Env) (l : LambdaRef) (closure : Option FrameRef) (m : Machine) : Option Fault :=
  let lambda := env.store.lambda l
  let captured := (closure.map m.heap.slots).getD #[]
  if lambda.vars < (captured.size + lambda.params) % wordCount then
    some (.malformed
      (.closureTooLarge lambda.displayName captured.size lambda.params lambda.vars))
  else if m.stack.available < lambda.params then some .stackUnderflow
  else if m.stack.maxDepth ≤ m.stack.depth then some (.callDepthExceeded m.stack.maxDepth)
  else none

/-- Enters a lambda: moves its arguments from the stack to a new frame, behind the values it
captured, and sets the limits of the call. -/
def enter (env : Env) (tasks : List Task) (l : LambdaRef) (closure : Option FrameRef) :
    Exec Activation := fun m =>
  match env.barrier l closure m with
  | some fault => .error fault m
  | none =>
    let lambda := env.store.lambda l
    let captured := (closure.map m.heap.slots).getD #[]
    let base := m.stack.height - lambda.params
    let seed := captured ++ m.stack.above base
    let m := m.settle (held tasks)
    let (frame, m) := m.newFrame .owned lambda.vars
    let m := m.register frame
    let heap := m.heap.update (.frame frame) fun slots => seed ++ slots.extract seed.size slots.size
    let stack := { m.stack.truncate base with depth := m.stack.depth + 1 }
    let activation :=
      { lambda := l, frame, callerFloor := stack.floor, callerCeiling := stack.ceiling }
    .ok activation { m with heap, stack := stack.raiseFloor.raiseCeiling lambda.maxStack }

/-- Leaves a lambda: restores the limits of the caller and lets go of the frame. -/
def leave (a : Activation) (m : Machine) : Machine :=
  let m := { m with
    stack := { m.stack with
      ceiling := a.callerCeiling, floor := a.callerFloor, depth := m.stack.depth - 1 } }
  if m.keeper.idle then { m with keeper := m.keeper.release m.heap a.frame }
  else { m with keeper := m.keeper.share a.frame }.letGo (.frame a.frame)

/-- Lets go of what an activation called. -/
def finish (callee : Option Callable) (m : Machine) : Machine :=
  match callee with
  | some c => m.letGo (.callable c)
  | none => m

/-- Takes a failure out through the tasks, each of which lets go of what it holds. -/
def unwind (env : Env) (f : Failure) : List Task → Machine → Status
  | [], m => .halted (.error f) m
  | .handler taken next :: rest, m => .running ⟨.native (next (.error f)) taken :: rest, m⟩
  | .body a :: rest, m => env.unwind (f.locate (env.position a)) rest (leave a m)
  | .waiting a callee :: rest, m =>
    env.unwind (f.locate (env.position a)) rest (leave a (finish callee m))
  | .constructed i _ :: rest, m => env.unwind f rest (m.letGo (.record i))
  | _ :: rest, m => env.unwind f rest m

/-- Goes on with the tasks a computation answers, or unwinds `rest` if it fails. -/
def proceed (env : Env) (rest : List Task) (x : Exec (List Task)) (m : Machine) : Status :=
  match x m with
  | .ok tasks m => .running ⟨tasks, m⟩
  | .error f m => env.unwind f rest m

/-- Starts a call. -/
def call (env : Env) (rest : List Task) : Callable → Exec (List Task)
  | .function _ body closure => do return .body (← env.enter rest body closure) :: rest
  | .native _ fn => return .native (env.routine fn) [] :: rest
  | .thunk _ func arg => do
    Exec.push arg
    return .call func :: rest
  | .undefined => Exec.fault .undefinedCall

/-- Makes an instance with its fields nil and pushes it. Answers it with the height of the stack there
was. -/
def allocate (r : RecordRef) (size : Nat) : Exec (InstanceRef × Nat) := do
  let i ← fun m =>
    let (i, heap) := m.heap.addInstance r size
    .ok i { m with heap }
  let base ← Exec.view (·.stack.height)
  Exec.push (.record i)
  return (i, base)

/-- Makes an instance and starts its initialiser. -/
def construct (env : Env) (rest : List Task) (r : RecordRef) : Exec (List Task) := do
  let record := env.store.record r
  if (env.store.lambda record.init).params != 1 then
    Exec.fault (.malformed (.initializerArity record.displayName))
  let (i, base) ← allocate r record.size
  let rest := .constructed i base :: rest
  return .body (← env.enter rest record.init none) :: rest

/-- Carries out the instruction an activation is at. -/
def instruction (env : Env) (rest : List Task) (a : Activation) (i : Instr) :
    Exec (List Task) := do
  let lambda := env.store.lambda a.lambda
  match ← Exec.perform lambda.code a.frame i with
  | .next => return .body { a with offset := a.offset + 1 } :: rest
  | .goto offset =>
    let length := (env.store.code lambda.code).size
    if offset ≤ length then return .body { a with offset } :: rest
    else Exec.fault (.labelOutOfBounds (signedOffset offset) length)
  | .leave => fun m => .ok rest (leave a m)
  | .call c => return .call c :: .waiting a (some c) :: rest
  | .native fn => return .native (env.routine fn) [] :: .waiting a none :: rest
  | .construct r => return .construct r :: .waiting a none :: rest

/-- One step of a run. -/
def step (env : Env) (c : Config) : Status :=
  match c.tasks with
  | [] => .halted (.ok ()) c.machine
  | .call callee :: rest => env.proceed rest (env.call rest callee) c.machine
  | .native r taken :: rest =>
    match r.advance env.store (held rest) taken c.machine with
    | (.done (), m) => .running ⟨rest, m⟩
    | (.failed f, m) => env.unwind f rest m
    | (.calling callee taken next, m) =>
      .running ⟨.call callee :: .handler taken next :: rest, m⟩
  | .handler taken next :: rest => .running ⟨.native (next (.ok ())) taken :: rest, c.machine⟩
  | .body a :: rest =>
    match (env.store.body a.lambda)[a.offset]? with
    | some i => env.proceed (.body a :: rest) (env.instruction rest a i) c.machine
    | none => .running ⟨rest, leave a c.machine⟩
  | .waiting a callee :: rest =>
    .running ⟨.body { a with offset := a.offset + 1 } :: rest, finish callee c.machine⟩
  | .construct r :: rest => env.proceed rest (env.construct rest r) c.machine
  | .constructed i base :: rest =>
    env.proceed rest (do
      modify (·.cutStack base)
      Exec.push (.record i)
      return rest) c.machine

/-- Makes steps until the run has halted, if the fuel lasts. -/
def run (env : Env) : Nat → Config → Option (Except Failure Unit × Machine)
  | 0, _ => none
  | fuel + 1, c =>
    match env.step c with
    | .running c => env.run fuel c
    | .halted outcome m => some (outcome, m)

end Env

end PlotMachine
