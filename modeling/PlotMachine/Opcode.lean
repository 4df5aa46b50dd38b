/-!
# Operation codes

The forty-nine operations of the machine, each with its mnemonic. The mnemonic is the name an
image file uses and the name a listing prints, so the two directions `Opcode.mnemonic` and
`Opcode.ofMnemonic?` are kept side by side.
-/

namespace PlotMachine

/-- The operation an instruction performs, without its operand. -/
inductive Opcode where
  | pop | intPush | constPush | varPush | varSave | globalPush | globalSave | fieldPush
  | fieldSave | memEq | memNeq | funcEq | funcNeq | iPlus | iMinus | iTimes | iDivide | iNegate
  | logNot | logEq | logNeq | iIncr | iDecr | iEq | iNeq | iGt | iGe | iLt | iLe | fPlus
  | fMinus | fTimes | fDivide | fNegate | fEq | fNeq | fGt | fGe | fLt | fLe | builtin | jmp
  | cJmp | nJmp | popCall | pushClosure | makeFunc | ret | alloc
  deriving DecidableEq, Repr, Inhabited

namespace Opcode

/-- Every operation, in the order of the instruction set. -/
def all : List Opcode :=
  [ .pop, .intPush, .constPush, .varPush, .varSave, .globalPush, .globalSave, .fieldPush,
    .fieldSave, .memEq, .memNeq, .funcEq, .funcNeq, .iPlus, .iMinus, .iTimes, .iDivide,
    .iNegate, .logNot, .logEq, .logNeq, .iIncr, .iDecr, .iEq, .iNeq, .iGt, .iGe, .iLt, .iLe,
    .fPlus, .fMinus, .fTimes, .fDivide, .fNegate, .fEq, .fNeq, .fGt, .fGe, .fLt, .fLe,
    .builtin, .jmp, .cJmp, .nJmp, .popCall, .pushClosure, .makeFunc, .ret, .alloc]

/-- The name of an operation in image files and listings. -/
def mnemonic : Opcode → String
  | .pop => "pop"
  | .intPush => "intpush"
  | .constPush => "constpush"
  | .varPush => "varpush"
  | .varSave => "varsave"
  | .globalPush => "globalpush"
  | .globalSave => "globalsave"
  | .fieldPush => "fieldpush"
  | .fieldSave => "fieldsave"
  | .memEq => "mem_eq"
  | .memNeq => "mem_neq"
  | .funcEq => "func_eq"
  | .funcNeq => "func_neq"
  | .iPlus => "i_plus"
  | .iMinus => "i_minus"
  | .iTimes => "i_times"
  | .iDivide => "i_divide"
  | .iNegate => "i_negate"
  | .logNot => "log_not"
  | .logEq => "log_eq"
  | .logNeq => "log_neq"
  | .iIncr => "i_incr"
  | .iDecr => "i_decr"
  | .iEq => "i_eq"
  | .iNeq => "i_neq"
  | .iGt => "i_gt"
  | .iGe => "i_ge"
  | .iLt => "i_lt"
  | .iLe => "i_le"
  | .fPlus => "f_plus"
  | .fMinus => "f_minus"
  | .fTimes => "f_times"
  | .fDivide => "f_divide"
  | .fNegate => "f_negate"
  | .fEq => "f_eq"
  | .fNeq => "f_neq"
  | .fGt => "f_gt"
  | .fGe => "f_ge"
  | .fLt => "f_lt"
  | .fLe => "f_le"
  | .builtin => "builtin"
  | .jmp => "jmp"
  | .cJmp => "cjmp"
  | .nJmp => "njmp"
  | .popCall => "popcall"
  | .pushClosure => "pushclosure"
  | .makeFunc => "makefunc"
  | .ret => "ret"
  | .alloc => "alloc"

/-- The operation with the given mnemonic, if there is one. -/
def ofMnemonic? (name : String) : Option Opcode :=
  all.find? (·.mnemonic == name)

/-- Reading a mnemonic gives back the operation it was written for. -/
theorem ofMnemonic?_mnemonic (op : Opcode) : ofMnemonic? op.mnemonic = some op := by
  cases op <;> decide

end Opcode

end PlotMachine
