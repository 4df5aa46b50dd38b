import PlotMachine.Arithmetic
import PlotMachine.Machine

/-!
# What instructions do

`Exec.perform` carries out one instruction on the machine and says how the run goes on. Calls of
any kind are not carried out here; they are handed to the run as a `Flow`.
-/

namespace PlotMachine

/-- How a run goes on after an instruction. -/
inductive Flow where
  /-- With the next instruction. -/
  | next
  /-- With the instruction at an offset. -/
  | goto (offset : Nat)
  /-- By leaving the lambda. -/
  | leave
  /-- By calling a callable. -/
  | call (c : Callable)
  /-- By running a native. -/
  | native (fn : Native)
  /-- By making and initialising a record instance. -/
  | construct (r : RecordRef)

/-- The activation of a lambda. -/
structure Activation where
  lambda : LambdaRef
  frame : FrameRef
  /-- The offset of the instruction it is at. -/
  offset : Nat := 0
  /-- The floor of the caller. -/
  callerFloor : Nat
  /-- The ceiling of the caller. -/
  callerCeiling : Nat
  deriving DecidableEq, Repr, Inhabited

namespace Exec

/-- Pops the right and the left operand and pushes a result. -/
def binary {α β : Type} [Payload α] [Payload β] (f : α → α → Except Fault β) : Exec Unit :=
  takingAs fun b => takingAs fun a => do pushData (← ofExcept (f a b))

/-- Pops an operand and pushes a result. -/
def unary {α β : Type} [Payload α] [Payload β] (f : α → Except Fault β) : Exec Unit := do
  let a ← popAs α
  pushData (← ofExcept (f a))

/-- The object whose fields a value gives access to. -/
def fieldOwner (v : Value) : Exec Object :=
  match v.object? with
  | some o => pure o
  | none => fault (.typeMismatch .record v.kind)

/-- Pushes the content of a slot. Reading a field pops the object. -/
def loadFrom (frame : FrameRef) (slot : Nat) : Storage → Exec Unit
  | .var => do push (← get (.frame frame) slot)
  | .global => do push (← get (.frame (← view (·.globals))) slot)
  | .field => taking fun target => do push (← get (← fieldOwner target) slot)

/-- Copies the top value into a slot. Writing a field pops the object above the value first. -/
def saveTo (frame : FrameRef) (slot : Nat) : Storage → Exec Unit
  | .var => do put (.frame frame) slot (← top)
  | .global => do
    let v ← top
    put (.frame (← view (·.globals))) slot v
  | .field => taking fun target => do
    let v ← top
    put (← fieldOwner target) slot v

/-- Adds one to the integer on top of the stack, or subtracts one. -/
def stepTop (up : Bool) : Exec Unit := do
  let n ← ofExcept ((← top).read : Except Fault Int64)
  setTop (.int (← ofExcept (stepInt up n)))

/-- Whether a jump is taken. -/
def holds : JumpCondition → Exec Bool
  | .always => pure true
  | .when expected => do return (← popAs Bool) == expected

/-- Carries out an instruction of the program `home` in a frame. -/
def perform (home : ProgramRef) (frame : FrameRef) : Instr → Exec Flow
  | .pop => taking fun _ => return .next
  | .intPush n => do push (.int n); return .next
  | .constPush v => do push v; return .next
  | .load storage slot => do loadFrom frame slot storage; return .next
  | .save storage slot => do saveTo frame slot storage; return .next
  | .memCompare negated => do
    taking fun b => taking fun a => push (.bool (a.sameRef b != negated))
    return .next
  | .funcCompare negated => do
    binary fun (a b : Callable) => .ok (a.sameFunction b != negated)
    return .next
  | .intArith op => do binary op.onInts; return .next
  | .intNegate => do unary negateInt; return .next
  | .intStep up => do stepTop up; return .next
  | .intCompare cmp => do binary fun (a b : Int64) => .ok (cmp.onInts a b); return .next
  | .logNot => do unary fun (a : Bool) => .ok (!a); return .next
  | .logCompare negated => do binary fun (a b : Bool) => .ok ((a == b) != negated); return .next
  | .realArith op => do binary fun (a b : Float) => .ok (op.onReals a b); return .next
  | .realNegate => do unary fun (a : Float) => .ok (-a); return .next
  | .realCompare cmp => do binary fun (a b : Float) => .ok (cmp.onReals a b); return .next
  | .builtin fn => return .native fn
  | .jump condition target => do
    poll
    let offset ← ofExcept (target.offsetIn home)
    if ← holds condition then return .goto offset else return .next
  | .popCall => do
    poll
    return .call (← popAs Callable)
  | .pushClosure => do
    push (.frame frame)
    modify fun m => { m with keeper := m.keeper.share frame }
    return .next
  | .makeFunc body => do
    let closure ← popAs FrameRef
    let c ← newCallable (.function · body (some closure))
    push (.callable c)
    return .next
  | .ret => return .leave
  | .alloc record => return .construct record

end Exec

end PlotMachine
