import PlotMachine.Image.File
import PlotMachine.Registry

/-!
# Operands of image files

The instructions of an image file name an operation and give its operand as JSON. `InstrDef.decode`
checks that the operation exists and that its operand has the right form, and looks up natives. What
it answers still refers to lambdas and record types by their index in the file.
-/

namespace PlotMachine

/-- A constant of an image file. -/
inductive Constant where
  | nil
  | bool (b : Bool)
  | int (n : Int64)
  | real (x : Float)
  | str (s : String)
  /-- The lambda with an index. -/
  | lambda (index : Nat)
  /-- A function with the lambda with an index as its body. -/
  | function (index : Nat)
  /-- The native with a name. -/
  | native (name : String)
  | undefined
  deriving Inhabited

/-- A number that fits a signed word. -/
def signedWord? (n : Int) : Option Int64 :=
  if minSigned ≤ n ∧ n ≤ maxSigned then some (Int64.ofInt n) else none

/-- The real nearest to an integer of at most 64 bits. -/
def realOfInt (n : Int) : Float :=
  if n < 0 then -(n.natAbs.toUInt64.toFloat) else n.toNat.toUInt64.toFloat

/-- Reads a constant: an object with one field, whose key is the kind of the constant. The two
constants without data may also be written as a text. -/
def Constant.ofJson? : Json → Option Constant
  | .str "nil" | .obj [("nil", .null)] => some .nil
  | .str "undefined" | .obj [("undefined", .null)] => some .undefined
  | .obj [("bool", .bool b)] => some (.bool b)
  | .obj [("int", .int n)] => (signedWord? n).map .int
  | .obj [("real", .int n)] => some (.real (realOfInt n))
  | .obj [("real", .real x)] => some (.real x)
  | .obj [("str", .str s)] => some (.str s)
  | .obj [("lambda", .int n)] => if 0 ≤ n then some (.lambda n.toNat) else none
  | .obj [("function", .int n)] => if 0 ≤ n then some (.function n.toNat) else none
  | .obj [("native", .str name)] => some (.native name)
  | _ => none

/-- A lambda or record type of an image file. -/
inductive FileItem where
  | lambda (index : Nat)
  | record (index : Nat)
  deriving DecidableEq, Repr, Inhabited

/-- An instruction of an image file whose operand has the right form. -/
inductive Operand where
  /-- An instruction that refers to nothing in the file. -/
  | plain (instr : Instr)
  /-- A native as a value. -/
  | nativeValue (make : Value → Instr) (fn : Native)
  /-- A lambda as a value. -/
  | lambdaValue (make : Value → Instr) (index : Nat)
  /-- A function as a value. -/
  | functionValue (make : Value → Instr) (index : Nat)
  | target (make : Label → Instr) (offset : Nat)
  | lambda (make : LambdaRef → Instr) (index : Nat)
  | record (make : RecordRef → Instr) (index : Nat)

/-- Why an instruction of an image file cannot be decoded. -/
inductive OperandError where
  | unknownOpcode (name : String)
  | missingConstant
  | badConstant
  | notAnInteger (op : String)
  | notAnIndex (op : String)
  | notAText (op : String)
  | unknownNative (name : String)
  deriving DecidableEq, Repr

/-- What is wrong with an instruction, the outermost context first. -/
def OperandError.chain : OperandError → List String
  | .unknownOpcode name => [s!"unknown opcode '{name}'"]
  | .missingConstant => ["constpush needs a constant"]
  | .badConstant => ["bad constant", "the operand does not describe a constant"]
  | .notAnInteger op => [s!"{op} needs an integer operand"]
  | .notAnIndex op => [s!"{op} needs a non-negative integer operand"]
  | .notAText op => [s!"{op} needs a string operand"]
  | .unknownNative name => [s!"unknown native '{name}'"]

namespace InstrDef

/-- The operand as a signed word. -/
def intArg (d : InstrDef) : Except OperandError Int64 :=
  match d.arg with
  | some (.int n) =>
    match signedWord? n with
    | some n => .ok n
    | none => .error (.notAnInteger d.op)
  | _ => .error (.notAnInteger d.op)

/-- The operand as an index. -/
def indexArg (d : InstrDef) : Except OperandError Nat :=
  match d.arg with
  | some (.int n) => if 0 ≤ n then .ok n.toNat else .error (.notAnIndex d.op)
  | _ => .error (.notAnIndex d.op)

/-- The native with a name. -/
def nativeNamed (r : Registry) (name : String) : Except OperandError Native :=
  match r.native? name with
  | some fn => .ok fn
  | none => .error (.unknownNative name)

/-- The operand as a native. -/
def nativeArg (r : Registry) (d : InstrDef) : Except OperandError Native :=
  match d.arg with
  | some (.str name) => nativeNamed r name
  | _ => .error (.notAText d.op)

/-- A constant as an operand. -/
def constant (r : Registry) (make : Value → Instr) : Constant → Except OperandError Operand
  | .nil => .ok (.plain (make .nil))
  | .bool b => .ok (.plain (make (.bool b)))
  | .int n => .ok (.plain (make (.int n)))
  | .real x => .ok (.plain (make (.real x)))
  | .str s => .ok (.plain (make (.str s)))
  | .lambda index => .ok (.lambdaValue make index)
  | .function index => .ok (.functionValue make index)
  | .native name => do
    let fn ← nativeNamed r name
    return .nativeValue make fn
  | .undefined => .ok (.plain (make (.callable .undefined)))

/-- The operand as a constant. -/
def constantArg (r : Registry) (make : Value → Instr) (d : InstrDef) :
    Except OperandError Operand :=
  match d.arg with
  | none => .error .missingConstant
  | some arg =>
    match Constant.ofJson? arg with
    | some c => constant r make c
    | none => .error .badConstant

/-- Decodes an instruction. -/
def decode (r : Registry) (d : InstrDef) : Except OperandError Operand :=
  match Opcode.ofMnemonic? d.op with
  | none => .error (.unknownOpcode d.op)
  | some op =>
    match op.form with
    | .plain instr => .ok (.plain instr)
    | .int make => do return .plain (make (← d.intArg))
    | .constant make => d.constantArg r make
    | .slot make => do return .plain (make (← d.indexArg))
    | .native make => do return .plain (make (← d.nativeArg r))
    | .target make => do return .target make (← d.indexArg)
    | .lambda make => do return .lambda make (← d.indexArg)
    | .record make => do return .record make (← d.indexArg)

end InstrDef

namespace Operand

/-- What an instruction refers to. -/
def item? : Operand → Option FileItem
  | .lambdaValue _ index | .functionValue _ index | .lambda _ index => some (.lambda index)
  | .record _ index => some (.record index)
  | _ => none

end Operand

end PlotMachine
