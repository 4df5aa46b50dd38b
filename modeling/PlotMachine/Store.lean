import PlotMachine.Instr
import PlotMachine.Position

/-!
# The code store

Programs, lambdas and record types live in a `Store` and are referred to by index, so that code can
be shared and can mention itself. A program is a list of instructions that can still grow; a lambda
is a program together with the sizes needed to run it; a record type has a size and a lambda that
initialises its instances.

A reference that points outside the store denotes empty code, which keeps every look-up total.
-/

namespace PlotMachine

/-- The instructions of a program. -/
abbrev Code := Array Instr

/-- A function in machine code. -/
structure Lambda where
  name : Option String := none
  /-- The program it runs. -/
  code : ProgramRef
  /-- How many values it may hold on the stack while it runs. -/
  maxStack : Nat
  /-- How many arguments it takes. -/
  params : Nat
  /-- How many slots its frame has: captured values, then arguments, then locals. -/
  vars : Nat
  positions : SourceMap := {}
  deriving Inhabited

/-- The name of a lambda in messages and listings. -/
def Lambda.displayName (l : Lambda) : String := l.name.getD "<anonymous>"

/-- A record type. -/
structure Record where
  name : Option String := none
  /-- The number of fields. -/
  size : Nat
  /-- The lambda that fills a new instance, which is its only argument. -/
  init : LambdaRef
  deriving Inhabited

/-- The name of a record type in messages and listings. -/
def Record.displayName (r : Record) : String := r.name.getD "<record>"

/-- All code: programs, lambdas and record types. -/
structure Store where
  /-- The programs; one that was discarded leaves a gap. -/
  programs : Array (Option Code) := #[]
  lambdas : Array Lambda := #[]
  records : Array Record := #[]
  deriving Inhabited

namespace Store

/-- The code of a program that exists. -/
def code? (s : Store) (p : ProgramRef) : Option Code := s.programs[p.index]?.join

/-- The code of a program, empty if there is no such program. -/
def code (s : Store) (p : ProgramRef) : Code := (s.code? p).getD #[]

/-- A lambda of the store. -/
def lambda (s : Store) (l : LambdaRef) : Lambda :=
  s.lambdas[l.index]?.getD { code := ⟨s.programs.size⟩, maxStack := 0, params := 0, vars := 0 }

/-- A record type of the store. -/
def record (s : Store) (r : RecordRef) : Record :=
  s.records[r.index]?.getD { size := 0, init := ⟨s.lambdas.size⟩ }

/-- The code a lambda runs. -/
def body (s : Store) (l : LambdaRef) : Code := s.code (s.lambda l).code

/-- Adds a program. -/
def addProgram (s : Store) (code : Code) : ProgramRef × Store :=
  (⟨s.programs.size⟩, { s with programs := s.programs.push (some code) })

/-- Adds a lambda. -/
def addLambda (s : Store) (l : Lambda) : LambdaRef × Store :=
  (⟨s.lambdas.size⟩, { s with lambdas := s.lambdas.push l })

/-- Adds a record type. -/
def addRecord (s : Store) (r : Record) : RecordRef × Store :=
  (⟨s.records.size⟩, { s with records := s.records.push r })

/-- Appends instructions to a program. -/
def extend (s : Store) (p : ProgramRef) (code : Code) : Store :=
  { s with programs := s.programs.modify p.index (Option.map (· ++ code)) }

/-- Discards a program. Labels into it dangle from then on. -/
def discard (s : Store) (p : ProgramRef) : Store :=
  { s with programs := s.programs.modify p.index fun _ => none }

/-- The constants that a program pushes. -/
def constantsOf (code : Code) : List Value :=
  code.toList.filterMap fun
    | .constPush v => some v
    | _ => none

/-- The constants that the programs of the store push. -/
def constants (s : Store) : List Value :=
  s.programs.toList.flatMap fun code? => constantsOf (code?.getD #[])

end Store

end PlotMachine
