import PlotMachine.Machine.Host

/-!
# Capacity

The slots of a frame, the fields of an instance and the items of a new array are made in one piece, and
when a lambda is entered the stack is made large enough for all that the lambda may push. No buffer
holds more values than its capacity allows, and where more are asked for the program ends on the spot.
That is no failure: nothing is unwound, no native is told of it, and the host gets no answer.

`Env.run` says what a run does as long as the capacity suffices. `Env.runWithin` looks before each step
whether it does (`Env.fits`). What grows value by value is not looked at, since it is never larger than
what was put into it.
-/

namespace PlotMachine

/-- What comes of something for which the capacity may not suffice. -/
inductive Attempt (α : Type) where
  | done (a : α)
  /-- More was asked for than a buffer can hold. -/
  | aborted

namespace Attempt

/-- What was done, if it was. -/
def done? {α : Type} : Attempt α → Option α
  | .done a => some a
  | .aborted => none

/-- Goes on with what was done. -/
def map {α β : Type} (f : α → β) : Attempt α → Attempt β
  | .done a => .done (f a)
  | .aborted => .aborted

end Attempt

/-- How many values a request asks for in one piece. -/
def Request.demand : Request → Nat
  | .newArray content => content.size
  | .blankArray length => length
  | _ => 0

/-- Whether the capacity suffices for what a routine asks for up to its end or its next call. -/
def Routine.fits {α : Type} (capacity : Nat) (s : Store) (held : Heap → List Object) (r : Routine α)
    (taken : List Value) (m : Machine) : Bool :=
  match r with
  | .done _ | .fail _ | .invoke .. => true
  | .ask q next =>
    q.demand ≤ capacity && match q.serve s (holding taken held) m with
      | .ok reply m => (next reply).fits capacity s held (q.taken reply ++ q.kept taken) m
      | .error .. => true

namespace Env

/-- Whether the capacity suffices for the frame of a lambda and for the stack it may fill. A lambda that
cannot be entered asks for nothing. -/
def entryFits (env : Env) (capacity : Nat) (l : LambdaRef) (closure : Option FrameRef)
    (m : Machine) : Bool :=
  let lambda := env.store.lambda l
  (env.barrier l closure m).isSome ||
    (lambda.vars ≤ capacity && m.stack.height - lambda.params + lambda.maxStack ≤ capacity)

/-- Whether the capacity suffices for an instance and then for its initialiser. -/
def instanceFits (env : Env) (capacity : Nat) (r : RecordRef) (m : Machine) : Bool :=
  let record := env.store.record r
  (env.store.lambda record.init).params != 1 ||
    (record.size ≤ capacity && match allocate r record.size m with
      | .ok _ m => env.entryFits capacity record.init none m
      | .error .. => true)

/-- Whether the capacity suffices for the next step of a run. -/
def fits (env : Env) (capacity : Nat) (c : Config) : Bool :=
  match c.tasks with
  | .call (.function _ body closure) :: _ => env.entryFits capacity body closure c.machine
  | .construct r :: _ => env.instanceFits capacity r c.machine
  | .native r taken :: rest => r.fits capacity env.store (held rest) taken c.machine
  | _ => true

/-- One step of a run, if the capacity suffices for it. -/
def stepWithin (env : Env) (capacity : Nat) (c : Config) : Attempt Status :=
  if env.fits capacity c then .done (env.step c) else .aborted

/-- Makes steps until the run has halted or the capacity does not suffice, if the fuel lasts. -/
def runWithin (env : Env) (capacity : Nat) :
    Nat → Config → Option (Attempt (Except Failure Unit × Machine))
  | 0, _ => none
  | fuel + 1, c =>
    match env.stepWithin capacity c with
    | .done (.running c) => env.runWithin capacity fuel c
    | .done (.halted outcome m) => some (.done (outcome, m))
    | .aborted => some .aborted

/-- Runs the tasks of a call from the host as far as the capacity suffices. -/
def concludedWithin (env : Env) (capacity fuel : Nat) (tasks : List Task) (args : List Value)
    (m : Machine) : Option (Attempt (Except Failure Unit × Machine)) :=
  match started args m with
  | .ok () before => env.runWithin capacity fuel ⟨tasks, before⟩
  | .error f before => some (.done (.error f, before))

/-- Calls a callable as far as the capacity suffices, and answers what it left on the stack, bottom
first. -/
def invokeWithin (env : Env) (capacity fuel : Nat) (c : Callable) (args : List Value) (m : Machine) :
    Option (Attempt (Except Failure (Array Value) × Machine)) :=
  (env.concludedWithin capacity fuel [.call c] args m).map fun finished =>
    finished.map fun ended => handedOver m.stack.height (restored m.stack ended)

end Env

end PlotMachine
