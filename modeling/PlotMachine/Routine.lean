import PlotMachine.Machine
import PlotMachine.Value.Text

/-!
# Native routines

A native is written against a small interface: it can work on the stack within the limits of the
call it runs in, read and make heap objects, print, raise the interrupt flag, and call a callable.
A `Routine` is a native spelled out as a tree of such requests, so a native is data that can be
reasoned about, and the interface is all that it can do. Calls are not requests like the others: a
call runs in the machine, and the routine goes on with its outcome, which may be a failure that it
handles. What a native popped it holds until it gives it to the stack or to an object, or else until
it is over.
-/

namespace PlotMachine

/-- What a native can ask for, apart from a call. -/
inductive Request where
  /-- Push a value. -/
  | push (v : Value)
  /-- Pop a value. -/
  | pop
  /-- The top value. -/
  | top
  /-- Replace the top value. -/
  | setTop (v : Value)
  /-- The number of values on the stack. -/
  | height
  /-- The number of values in reach. -/
  | available
  /-- All values on the stack, bottom first. -/
  | values
  /-- The number of lambdas that are running. -/
  | depth
  /-- The global frame. -/
  | globals
  /-- The number of frames of the machine that are in use. -/
  | liveFrames
  /-- A new array. -/
  | newArray (items : Array Value)
  /-- A new array of nil values, for which there has to be the capacity (`Routine.fits`). -/
  | blankArray (length : Nat)
  /-- The items of an array. -/
  | items (a : ArrayRef)
  /-- One item of an array. -/
  | getItem (a : ArrayRef) (index : Nat)
  /-- Write one item of an array. -/
  | setItem (a : ArrayRef) (index : Nat) (v : Value)
  /-- Append to an array. -/
  | append (a : ArrayRef) (v : Value)
  /-- A new thunk. -/
  | newThunk (func : Callable) (arg : Value)
  /-- The text of a value. -/
  | text (v : Value)
  /-- Print a text. -/
  | write (s : String)
  /-- Raise the interrupt flag. -/
  | interrupt

namespace Request

/-- What a request is answered with. -/
@[reducible] def Reply : Request → Type
  | .push _ | .setTop _ | .setItem .. | .append .. | .write _ | .interrupt => Unit
  | .pop | .top | .getItem .. => Value
  | .height | .available | .depth | .liveFrames => Nat
  | .globals => FrameRef
  | .newArray _ | .blankArray _ => ArrayRef
  | .values | .items _ => Array Value
  | .newThunk .. => Callable
  | .text _ => String

/-- The values that a request puts in the hands of the native. -/
def taken : (q : Request) → q.Reply → List Value
  | .pop, v => [v]
  | _, _ => []

/-- The values that a request takes out of the hands of the native, whatever the answer. -/
def given : Request → List Value
  | .push v | .setTop v | .append _ v => [v]
  | .newThunk func arg => [.callable func, arg]
  | _ => []

/-- What a native that holds the given values still holds when it makes a request. -/
def kept (q : Request) (taken : List Value) : List Value :=
  q.given.foldl (fun taken v => taken.eraseP (·.sameRef v)) taken

/-- Answers a request, where `held` are the objects held by what is running. -/
def serve (s : Store) (held : Heap → List Object) : (q : Request) → Exec q.Reply
  | .push v => Exec.push v
  | .pop => Exec.pop
  | .top => Exec.top
  | .setTop v => Exec.setTop v
  | .height => Exec.view (·.stack.height)
  | .available => Exec.view (·.stack.available)
  | .values => Exec.view (·.stack.values)
  | .depth => Exec.view (·.stack.depth)
  | .globals => Exec.view (·.globals)
  | .liveFrames => Exec.view fun m => (m.settle held).liveFrames
  | .newArray content => Exec.newArray content
  | .blankArray length => Exec.newArray (Array.replicate length .nil)
  | .items a => Exec.view (·.heap.items a)
  | .getItem a index => Exec.get (.array a) index
  | .setItem a index v => Exec.put (.array a) index v
  | .append a v => fun m => .ok () { m with heap := m.heap.append a v }
  | .newThunk func arg => Exec.newCallable (.thunk · func arg)
  | .text v => Exec.view fun m => s.text m.heap v
  | .write t => fun m => .ok () { m with output := m.output ++ t }
  | .interrupt => fun m => .ok () { m with interrupt := { m.interrupt with raised := true } }

end Request

/-- A native that ends with a result of the given type. -/
inductive Routine (α : Type) where
  /-- The routine is done. -/
  | done (a : α)
  /-- The routine fails. -/
  | fail (f : Failure)
  /-- The routine makes a request and goes on with the reply. -/
  | ask (q : Request) (next : q.Reply → Routine α)
  /-- The routine calls something and goes on with the outcome. -/
  | invoke (c : Callable) (next : Except Failure Unit → Routine α)

namespace Routine

/-- Runs one routine and then another that depends on its result. -/
def bind {α β : Type} (r : Routine α) (f : α → Routine β) : Routine β :=
  match r with
  | .done a => f a
  | .fail e => .fail e
  | .ask q next => .ask q fun reply => (next reply).bind f
  | .invoke c next => .invoke c fun outcome => (next outcome).bind f

instance : Monad Routine where
  pure := .done
  bind := bind

/-- Fails with a fault. -/
def fault {α : Type} (f : Fault) : Routine α := .fail f

/-- Fails with a fault of the native itself. -/
def failWith {α : Type} (f : NativeFault) : Routine α := .fail (Fault.native f)

/-- Makes one request. -/
def request (q : Request) : Routine q.Reply := .ask q .done

/-- Pops a value. -/
def pop : Routine Value := request .pop

/-- Pushes a value. -/
def push (v : Value) : Routine Unit := request (.push v)

/-- Reads the data of a value. -/
def read {α : Type} [Payload α] (v : Value) : Routine α :=
  match (v.read : Except Fault α) with
  | .ok a => .done a
  | .error e => .fail e

/-- Pops a value and reads its data. -/
def popAs (α : Type) [Payload α] : Routine α := do read (← pop)

/-- Pushes a value that carries the given data. -/
def pushData {α : Type} [Payload α] (a : α) : Routine Unit := push (Payload.toValue a)

/-- How far a routine gets without leaving it: to its end, to a failure, or to a call, over which it
holds values. -/
inductive Pause (α : Type) where
  | done (a : α)
  | failed (f : Failure)
  | calling (c : Callable) (taken : List Value) (next : Except Failure Unit → Routine α)

/-- What is held by a native that holds values and by what waits for it. -/
def holding (taken : List Value) (held : Heap → List Object) (h : Heap) : List Object :=
  taken.flatMap Value.references ++ held h

/-- Runs a routine up to its end or its next call, where `held` are the objects held by what waits for
it. It holds the values it has taken and not given away, the last one first, and lets go of them in
this order when it is over. -/
def advance {α : Type} (s : Store) (held : Heap → List Object) (r : Routine α) (taken : List Value)
    (m : Machine) : Pause α × Machine :=
  match r with
  | .done a => (.done a, m.letGoAll taken)
  | .fail f => (.failed f, m.letGoAll taken)
  | .invoke c next => (.calling c (.callable c :: taken) next, m)
  | .ask q next =>
    match q.serve s (holding taken held) m with
    | .ok reply m => (next reply).advance s held (q.taken reply ++ q.kept taken) m
    | .error f m => (.failed f, m.letGoAll (q.kept taken))

end Routine

end PlotMachine
