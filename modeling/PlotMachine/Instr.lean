import PlotMachine.Opcode
import PlotMachine.Value

/-!
# Instructions

An instruction is an operation together with its operand. Operations that differ only in a
parameter (which comparison, which direction, which storage) are one constructor with that
parameter; `Instr.opcode` gives the flat operation code and `Opcode.form` goes the other way, from
an operation code to the operand it needs and the instruction it then makes.
-/

namespace PlotMachine

/-- The storage that a slot index refers to. -/
inductive Storage where
  /-- The slots of the running frame. -/
  | var
  /-- The slots of the global frame. -/
  | global
  /-- The fields of an object on top of the stack. -/
  | field
  deriving DecidableEq, Repr, Inhabited

/-- The four arithmetic operations. -/
inductive Arith where
  | plus | minus | times | divide
  deriving DecidableEq, Repr, Inhabited

/-- The six comparisons of ordered numbers. -/
inductive Comparison where
  | eq | neq | gt | ge | lt | le
  deriving DecidableEq, Repr, Inhabited

/-- When a jump is taken: always, or if the condition popped from the stack is the given one. -/
inductive JumpCondition where
  | always
  | when (expected : Bool)
  deriving DecidableEq, Repr, Inhabited

/-- One instruction. -/
inductive Instr where
  /-- Drop the top value. -/
  | pop
  /-- Push an integer. -/
  | intPush (n : Int64)
  /-- Push a constant. -/
  | constPush (v : Value)
  /-- Push the content of a slot. -/
  | load (storage : Storage) (slot : Nat)
  /-- Copy the top value into a slot. -/
  | save (storage : Storage) (slot : Nat)
  /-- Compare two values by reference. -/
  | memCompare (negated : Bool)
  /-- Compare two callables as functions. -/
  | funcCompare (negated : Bool)
  /-- Checked integer arithmetic. -/
  | intArith (op : Arith)
  /-- Checked integer negation. -/
  | intNegate
  /-- Add one to the integer on top of the stack, or subtract one. -/
  | intStep (up : Bool)
  /-- Compare two integers. -/
  | intCompare (cmp : Comparison)
  /-- Negate a truth value. -/
  | logNot
  /-- Compare two truth values. -/
  | logCompare (negated : Bool)
  /-- Arithmetic on reals. -/
  | realArith (op : Arith)
  /-- Negate a real. -/
  | realNegate
  /-- Compare two reals. -/
  | realCompare (cmp : Comparison)
  /-- Run a native on the stack. -/
  | builtin (fn : Native)
  /-- Go on at a label. -/
  | jump (condition : JumpCondition) (target : Label)
  /-- Pop a callable and call it. -/
  | popCall
  /-- Push the running frame. -/
  | pushClosure
  /-- Pop a frame and push a function that closes over it. -/
  | makeFunc (body : LambdaRef)
  /-- Leave the running lambda. -/
  | ret
  /-- Make and initialise a record instance. -/
  | alloc (record : RecordRef)
  deriving Inhabited

namespace Instr

/-- The operation code of an instruction. -/
def opcode : Instr → Opcode
  | .pop => .pop
  | .intPush _ => .intPush
  | .constPush _ => .constPush
  | .load .var _ => .varPush
  | .load .global _ => .globalPush
  | .load .field _ => .fieldPush
  | .save .var _ => .varSave
  | .save .global _ => .globalSave
  | .save .field _ => .fieldSave
  | .memCompare false => .memEq
  | .memCompare true => .memNeq
  | .funcCompare false => .funcEq
  | .funcCompare true => .funcNeq
  | .intArith .plus => .iPlus
  | .intArith .minus => .iMinus
  | .intArith .times => .iTimes
  | .intArith .divide => .iDivide
  | .intNegate => .iNegate
  | .intStep true => .iIncr
  | .intStep false => .iDecr
  | .intCompare .eq => .iEq
  | .intCompare .neq => .iNeq
  | .intCompare .gt => .iGt
  | .intCompare .ge => .iGe
  | .intCompare .lt => .iLt
  | .intCompare .le => .iLe
  | .logNot => .logNot
  | .logCompare false => .logEq
  | .logCompare true => .logNeq
  | .realArith .plus => .fPlus
  | .realArith .minus => .fMinus
  | .realArith .times => .fTimes
  | .realArith .divide => .fDivide
  | .realNegate => .fNegate
  | .realCompare .eq => .fEq
  | .realCompare .neq => .fNeq
  | .realCompare .gt => .fGt
  | .realCompare .ge => .fGe
  | .realCompare .lt => .fLt
  | .realCompare .le => .fLe
  | .builtin _ => .builtin
  | .jump .always _ => .jmp
  | .jump (.when true) _ => .cJmp
  | .jump (.when false) _ => .nJmp
  | .popCall => .popCall
  | .pushClosure => .pushClosure
  | .makeFunc _ => .makeFunc
  | .ret => .ret
  | .alloc _ => .alloc

/-- Where a jump goes. -/
def target? : Instr → Option Label
  | .jump _ target => some target
  | _ => none

end Instr

/-- The operand that an operation needs, and the instruction it then makes. -/
inductive Form where
  | plain (instr : Instr)
  | int (make : Int64 → Instr)
  | constant (make : Value → Instr)
  | slot (make : Nat → Instr)
  | native (make : Native → Instr)
  | target (make : Label → Instr)
  | lambda (make : LambdaRef → Instr)
  | record (make : RecordRef → Instr)

/-- The form of the instructions with a given operation code. -/
def Opcode.form : Opcode → Form
  | .pop => .plain .pop
  | .intPush => .int .intPush
  | .constPush => .constant .constPush
  | .varPush => .slot (.load .var)
  | .varSave => .slot (.save .var)
  | .globalPush => .slot (.load .global)
  | .globalSave => .slot (.save .global)
  | .fieldPush => .slot (.load .field)
  | .fieldSave => .slot (.save .field)
  | .memEq => .plain (.memCompare false)
  | .memNeq => .plain (.memCompare true)
  | .funcEq => .plain (.funcCompare false)
  | .funcNeq => .plain (.funcCompare true)
  | .iPlus => .plain (.intArith .plus)
  | .iMinus => .plain (.intArith .minus)
  | .iTimes => .plain (.intArith .times)
  | .iDivide => .plain (.intArith .divide)
  | .iNegate => .plain .intNegate
  | .logNot => .plain .logNot
  | .logEq => .plain (.logCompare false)
  | .logNeq => .plain (.logCompare true)
  | .iIncr => .plain (.intStep true)
  | .iDecr => .plain (.intStep false)
  | .iEq => .plain (.intCompare .eq)
  | .iNeq => .plain (.intCompare .neq)
  | .iGt => .plain (.intCompare .gt)
  | .iGe => .plain (.intCompare .ge)
  | .iLt => .plain (.intCompare .lt)
  | .iLe => .plain (.intCompare .le)
  | .fPlus => .plain (.realArith .plus)
  | .fMinus => .plain (.realArith .minus)
  | .fTimes => .plain (.realArith .times)
  | .fDivide => .plain (.realArith .divide)
  | .fNegate => .plain .realNegate
  | .fEq => .plain (.realCompare .eq)
  | .fNeq => .plain (.realCompare .neq)
  | .fGt => .plain (.realCompare .gt)
  | .fGe => .plain (.realCompare .ge)
  | .fLt => .plain (.realCompare .lt)
  | .fLe => .plain (.realCompare .le)
  | .builtin => .native .builtin
  | .jmp => .target (.jump .always)
  | .cJmp => .target (.jump (.when true))
  | .nJmp => .target (.jump (.when false))
  | .popCall => .plain .popCall
  | .pushClosure => .plain .pushClosure
  | .makeFunc => .lambda .makeFunc
  | .ret => .plain .ret
  | .alloc => .record .alloc

end PlotMachine
