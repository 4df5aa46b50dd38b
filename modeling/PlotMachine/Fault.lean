import PlotMachine.Decimal
import PlotMachine.Opcode
import PlotMachine.Position
import PlotMachine.Value

/-!
# Faults

What can go wrong while code runs. A `Fault` is the cause; a `Failure` is a fault on its way out of
the machine, which carries the source position of the innermost call that knows one. The wording of
every message is in `Fault.message`.
-/

namespace PlotMachine

/-- A sequence that is read by index. -/
inductive Area where
  | frame | array
  deriving DecidableEq, Repr, Inhabited

/-- The name of an area in messages. -/
def Area.name : Area → String
  | .frame => "frame"
  | .array => "array"

/-- What makes a lambda or a record type unfit to run. Names are given as they are displayed. -/
inductive Defect where
  /-- A frame cannot hold the arguments. -/
  | paramsExceedVars (lambda : String) (params vars : Nat)
  /-- An instruction names a slot that the frame does not have. -/
  | slotOutOfRange (lambda : String) (op : Opcode) (offset slot vars : Nat)
  /-- The initialiser of a record type takes `params` arguments and not one. -/
  | initializerTakes (record : String) (params : Nat)
  /-- The initialiser of a record type that is to be instantiated does not take one argument. -/
  | initializerArity (record : String)
  /-- A frame cannot hold the captured values and the arguments. -/
  | closureTooLarge (lambda : String) (captured params vars : Nat)
  /-- The host supplied more arguments than the lambda takes. -/
  | tooManyArguments (lambda : String) (params supplied : Nat)
  deriving DecidableEq, Repr

/-- The description of a defect. -/
def Defect.message : Defect → String
  | .paramsExceedVars lambda params vars => s!"{lambda}: params ({params}) exceeds vars ({vars})"
  | .slotOutOfRange lambda op offset slot vars =>
    s!"{lambda}: {op.mnemonic} at {offset} uses slot {slot} but vars is {vars}"
  | .initializerTakes record params =>
    s!"initializer of {record} must take exactly one parameter, takes {params}"
  | .initializerArity record => s!"initializer of {record} must take exactly one parameter"
  | .closureTooLarge lambda captured params vars =>
    s!"{lambda}: closure ({captured}) + params ({params}) exceeds vars ({vars})"
  | .tooManyArguments lambda params supplied =>
    s!"{lambda} takes {params} arguments, got {supplied}"

/-- A failure that a native reports. -/
inductive NativeFault where
  /-- A real that no integer is the floor of. -/
  | floorOutOfRange (x : Float)
  /-- An array of negative length. -/
  | negativeLength (n : Int64)
  /-- An array index below zero. -/
  | negativeIndex (i : Int64)
  /-- A failure of a host function, with the failures that led to it, outermost first. -/
  | host (message : String) (causes : List String)

namespace NativeFault

/-- The description of a native's failure. -/
def message : NativeFault → String
  | .floorOutOfRange x => s!"math.floor: {realText x} does not fit an integer"
  | .negativeLength n => s!"array.new: negative length {n.toInt}"
  | .negativeIndex i => s!"negative array index {i.toInt}"
  | .host message _ => message

/-- The failures that led to it. -/
def causes : NativeFault → List String
  | .host _ causes => causes
  | _ => []

end NativeFault

/-- The cause of a failed run. -/
inductive Fault where
  | typeMismatch (expected found : Kind)
  | undefinedCall
  | divisionByZero
  | integerOverflow (op : Opcode)
  | labelOutOfBounds (offset : Int) (length : Nat)
  | labelMismatch
  | danglingLabel
  | indexOutOfBounds (area : Area) (index length : Nat)
  | stackOverflow (limit : Nat)
  | stackUnderflow
  | callDepthExceeded (limit : Nat)
  | malformed (defect : Defect)
  | interrupted
  | native (fault : NativeFault)

namespace Fault

/-- The description of a fault. -/
def message : Fault → String
  | .typeMismatch expected found =>
    s!"type mismatch: expected {expected.name}, found {found.name}"
  | .undefinedCall => "call to undefined function"
  | .divisionByZero => "integer division by zero"
  | .integerOverflow op => s!"integer overflow in {op.mnemonic}"
  | .labelOutOfBounds offset length =>
    s!"label offset {offset} is outside program bounds 0..{length}"
  | .labelMismatch => "labels belong to different programs"
  | .danglingLabel => "label refers to a program that no longer exists"
  | .indexOutOfBounds area index length =>
    s!"{area.name} index {index} out of bounds (len {length})"
  | .stackOverflow limit => s!"stack depth exceeded limit of {limit}"
  | .stackUnderflow => "stack underflow"
  | .callDepthExceeded limit => s!"call depth exceeded limit of {limit}"
  | .malformed defect => "malformed lambda: " ++ defect.message
  | .interrupted => "execution interrupted"
  | .native fault => fault.message

/-- Whether a fault shows that the code itself is broken. The others are errors that a program can
run into with the best of code. -/
def isFatal : Fault → Bool
  | .labelOutOfBounds .. | .labelMismatch | .danglingLabel | .indexOutOfBounds .. => true
  | .stackOverflow _ | .stackUnderflow | .callDepthExceeded _ | .malformed _ => true
  | _ => false

end Fault

/-- A fault on its way out of the machine. -/
structure Failure where
  fault : Fault
  /-- The position of the innermost call that knows one. -/
  position : Option Position := none

namespace Failure

instance : Coe Fault Failure := ⟨fun fault => { fault }⟩

/-- Notes where a failure happened, unless that is already known or the position is not. -/
def locate (f : Failure) (p : Position) : Failure :=
  if f.position.isSome || !p.isKnown then f else { f with position := some p }

/-- The fault stays the same when it is located. -/
@[simp] theorem fault_locate (f : Failure) (p : Position) : (f.locate p).fault = f.fault := by
  unfold locate
  split <;> rfl

/-- A failure is located once. -/
theorem locate_of_isSome {f : Failure} (h : f.position.isSome) (p : Position) : f.locate p = f := by
  simp [locate, h]

/-- The description of a failure, with its position in front. -/
def message (f : Failure) : String :=
  match f.position with
  | some p => s!"{p.text}: {f.fault.message}"
  | none => f.fault.message

/-- The failures below this one. The message of a located failure stands for all of them. -/
def causes (f : Failure) : List String :=
  match f.position, f.fault with
  | none, .native fault => fault.causes
  | _, _ => []

/-- Whether the failure shows broken code. -/
def isFatal (f : Failure) : Bool := f.fault.isFatal

end Failure

/-- The data of a value of the expected kind. Values are never converted. -/
def Value.read {α : Type} [Payload α] (v : Value) : Except Fault α :=
  match Payload.ofValue? v with
  | some a => .ok a
  | none => .error (.typeMismatch (Payload.kind α) v.kind)

end PlotMachine
