import PlotMachine.Library.Modules

/-!
# Hosts

A host owns the code, offers natives, and drives a machine. The functions here are those of the
machine with the code and the natives of the host.
-/

namespace PlotMachine

/-- A program that has a machine in it. -/
structure Host where
  store : Store := {}
  registry : Registry := {}
  /-- What the host functions do, by key. -/
  functions : String → Routine Unit := fun _ => .done ()
  machine : Machine

namespace Host

/-- A host with the native library. -/
def standard (settings : Settings) : Host :=
  { registry := .standard, machine := .new settings }

/-- The code and the natives of a host. -/
def env (h : Host) : Env := { store := h.store, host := h.functions }

/-- How many steps a run may take. -/
def fuel : Nat := 0x4000000000000000

/-- Replaces the machine of a host by the one a run ended with. -/
def after {α : Type} (h : Host) (x : Option (α × Machine)) : Option (α × Host) :=
  x.map fun (a, machine) => (a, { h with machine })

/-- Runs a lambda. -/
def exec (h : Host) (l : LambdaRef) (args : List Value) :
    Option (Except Failure (Array Value) × Host) :=
  h.after (h.env.exec fuel l args h.machine)

/-- Calls a callable. -/
def call (h : Host) (c : Callable) (args : List Value) :
    Option (Except Failure (Array Value) × Host) :=
  h.after (h.env.invoke fuel c args h.machine)

/-- Calls a callable on what is on the stack, and leaves there what it leaves. -/
def invoke (h : Host) (c : Callable) : Option (Except Failure Unit × Host) :=
  h.after (h.env.run fuel ⟨[.call c], h.machine⟩)

/-- Makes and initialises an instance. -/
def instantiate (h : Host) (r : RecordRef) : Option (Except Failure InstanceRef × Host) :=
  h.after (h.env.instantiate fuel r h.machine)

/-- Instantiates the loaded record types into a new global frame. -/
def bootup (h : Host) (globals : Nat) : Option (Except BootError (List InstanceRef) × Host) :=
  h.after (h.env.bootup fuel h.registry globals h.machine)

/-- The text of a value. -/
def text (h : Host) (v : Value) : String := h.store.text h.machine.heap v

end Host

end PlotMachine
