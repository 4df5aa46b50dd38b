import PlotMachine.Native

/-!
# Values

The machine is dynamically typed. A `Value` is a scalar, a reference to an object of the heap (an
array, a record instance, a frame), a reference into the code store (a lambda, a label), or
something that can be called. References are indices, so heap objects are shared and may be cyclic
while a value itself is a finite tree.

A `Callable` is immutable and is therefore kept inside the value; the number it carries tells apart
objects that were made separately, which is what reference comparison looks at.
-/

namespace PlotMachine

/-- An array of the heap. -/
structure ArrayRef where
  index : Nat
  deriving DecidableEq, Repr, Inhabited, Hashable

/-- A record instance of the heap. -/
structure InstanceRef where
  index : Nat
  deriving DecidableEq, Repr, Inhabited, Hashable

/-- A frame of the heap. -/
structure FrameRef where
  index : Nat
  deriving DecidableEq, Repr, Inhabited, Hashable

/-- A program of the code store. -/
structure ProgramRef where
  index : Nat
  deriving DecidableEq, Repr, Inhabited, Hashable

/-- A lambda of the code store. -/
structure LambdaRef where
  index : Nat
  deriving DecidableEq, Repr, Inhabited, Hashable

/-- A record type of the code store. -/
structure RecordRef where
  index : Nat
  deriving DecidableEq, Repr, Inhabited, Hashable

/-- A place in a program: the program, if any, and an offset that may lie past its end. -/
structure Label where
  program : Option ProgramRef := none
  offset : Nat := 0
  deriving DecidableEq, Repr, Inhabited

mutual

/-- What the stack, frames, arrays and record fields hold. -/
inductive Value where
  | nil
  | bool (b : Bool)
  | int (n : Int64)
  | real (x : Float)
  | str (s : String)
  | array (a : ArrayRef)
  | record (i : InstanceRef)
  | callable (c : Callable)
  | frame (f : FrameRef)
  | lambda (l : LambdaRef)
  | label (l : Label)

/-- What can be called. -/
inductive Callable where
  /-- A lambda, with the frame it was made in if it closes over one. -/
  | function (id : Nat) (body : LambdaRef) (closure : Option FrameRef)
  /-- A function of the host. -/
  | native (id : Nat) (fn : Native)
  /-- A callable with its last argument already supplied. -/
  | thunk (id : Nat) (func : Callable) (arg : Value)
  /-- The placeholder for a function that was declared and never defined. -/
  | undefined

end

instance : Inhabited Value := ⟨.nil⟩

instance : Inhabited Callable := ⟨.undefined⟩

/-- The kinds of values. -/
inductive Kind where
  | nil | bool | int | real | string | array | record | function | frame | lambda | label
  deriving DecidableEq, Repr, Inhabited

/-- The name of a kind, as error messages give it. -/
def Kind.name : Kind → String
  | .nil => "Nil"
  | .bool => "Bool"
  | .int => "Int"
  | .real => "Real"
  | .string => "String"
  | .array => "Array"
  | .record => "Record"
  | .function => "Function"
  | .frame => "Frame"
  | .lambda => "Lambda"
  | .label => "Label"

/-- The kind of a value. -/
def Value.kind : Value → Kind
  | .nil => .nil
  | .bool _ => .bool
  | .int _ => .int
  | .real _ => .real
  | .str _ => .string
  | .array _ => .array
  | .record _ => .record
  | .callable _ => .function
  | .frame _ => .frame
  | .lambda _ => .lambda
  | .label _ => .label

namespace Callable

/-- The number given to a callable when it was made. The placeholder is one object for all. -/
def id? : Callable → Option Nat
  | .function id _ _ => some id
  | .native id _ => some id
  | .thunk id _ _ => some id
  | .undefined => none

/-- Whether two callables are one object. -/
def sameObject (a b : Callable) : Bool :=
  a.id? == b.id?

/-- Whether two callables are the same function: the same body closing over the same frame, or the
same native. Thunks and the placeholder are not the same as anything, themselves included. -/
def sameFunction : Callable → Callable → Bool
  | .function _ body closure, .function _ body' closure' => body == body' && closure == closure'
  | .native _ fn, .native _ fn' => fn.sameFunction fn'
  | _, _ => false

end Callable

/-- Reference comparison: scalars, texts and labels by content, everything else by identity. -/
def Value.sameRef : Value → Value → Bool
  | .nil, .nil => true
  | .bool a, .bool b => a == b
  | .int a, .int b => a == b
  | .real a, .real b => a == b
  | .str a, .str b => a == b
  | .array a, .array b => a == b
  | .record a, .record b => a == b
  | .callable a, .callable b => a.sameObject b
  | .frame a, .frame b => a == b
  | .lambda a, .lambda b => a == b
  | .label a, .label b => a == b
  | _, _ => false

/-- A type of data that values of one kind carry. -/
class Payload (α : Type) where
  /-- The kind of the values that carry it. -/
  kind : Kind
  /-- The data of a value, if the value is of that kind. -/
  ofValue? : Value → Option α
  /-- The value that carries the data. -/
  toValue : α → Value
  /-- The data of a value determine it. -/
  toValue_eq : ∀ {v : Value} {a : α}, ofValue? v = some a → toValue a = v := by
    intro v a found
    cases v <;> cases found
    rfl

instance : Payload Bool where
  kind := .bool
  ofValue? | .bool b => some b | _ => none
  toValue := .bool

instance : Payload Int64 where
  kind := .int
  ofValue? | .int n => some n | _ => none
  toValue := .int

instance : Payload Float where
  kind := .real
  ofValue? | .real x => some x | _ => none
  toValue := .real

instance : Payload String where
  kind := .string
  ofValue? | .str s => some s | _ => none
  toValue := .str

instance : Payload ArrayRef where
  kind := .array
  ofValue? | .array a => some a | _ => none
  toValue := .array

instance : Payload InstanceRef where
  kind := .record
  ofValue? | .record i => some i | _ => none
  toValue := .record

instance : Payload Callable where
  kind := .function
  ofValue? | .callable c => some c | _ => none
  toValue := .callable

instance : Payload FrameRef where
  kind := .frame
  ofValue? | .frame f => some f | _ => none
  toValue := .frame

instance : Payload LambdaRef where
  kind := .lambda
  ofValue? | .lambda l => some l | _ => none
  toValue := .lambda

instance : Payload Label where
  kind := .label
  ofValue? | .label l => some l | _ => none
  toValue := .label

end PlotMachine
