import PlotMachine.Fault
import PlotMachine.Instr
import PlotMachine.Label

/-!
# Arithmetic

Integers are signed 64-bit words and arithmetic on them is exact: a result that does not fit is a
fault and is never wrapped. Arithmetic on reals is that of binary64.
-/

namespace PlotMachine

/-- An exact result as a word, if it fits. -/
def exactly (op : Opcode) (n : Int) : Except Fault Int64 :=
  if minSigned ≤ n ∧ n ≤ maxSigned then .ok (Int64.ofInt n) else .error (.integerOverflow op)

namespace Arith

/-- The operation code of an integer operation. -/
def intOpcode (op : Arith) : Opcode := (Instr.intArith op).opcode

/-- An integer operation on the left and the right operand. Division truncates toward zero. -/
def onInts (op : Arith) (a b : Int64) : Except Fault Int64 :=
  match op with
  | .plus => exactly op.intOpcode (a.toInt + b.toInt)
  | .minus => exactly op.intOpcode (a.toInt - b.toInt)
  | .times => exactly op.intOpcode (a.toInt * b.toInt)
  | .divide =>
    if b = 0 then .error .divisionByZero else exactly op.intOpcode (a.toInt.tdiv b.toInt)

/-- An operation on reals. -/
def onReals (op : Arith) (a b : Float) : Float :=
  match op with
  | .plus => a + b
  | .minus => a - b
  | .times => a * b
  | .divide => a / b

end Arith

/-- The integer with the opposite sign. -/
def negateInt (a : Int64) : Except Fault Int64 := exactly .iNegate (-a.toInt)

/-- The next integer up or down. -/
def stepInt (up : Bool) (a : Int64) : Except Fault Int64 :=
  if up then exactly .iIncr (a.toInt + 1) else exactly .iDecr (a.toInt - 1)

namespace Comparison

/-- A comparison of integers. -/
def onInts (cmp : Comparison) (a b : Int64) : Bool :=
  match cmp with
  | .eq => a == b
  | .neq => a != b
  | .gt => b < a
  | .ge => b ≤ a
  | .lt => a < b
  | .le => a ≤ b

/-- A comparison of reals. A number that is not a number differs from everything and is ordered
with nothing. -/
def onReals (cmp : Comparison) (a b : Float) : Bool :=
  match cmp with
  | .eq => a == b
  | .neq => a != b
  | .gt => b < a
  | .ge => b ≤ a
  | .lt => a < b
  | .le => a ≤ b

end Comparison

end PlotMachine
