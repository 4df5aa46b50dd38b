import PlotMachine.Library.Dash
import PlotMachine.Routine

/-!
# The native library

What each library function does. A function pops its arguments, the last one first, and pushes its
result; `write` pushes none. Integers and reals are never mixed: where a real is expected an integer
is a fault.
-/

namespace PlotMachine

namespace Routine

/-- A function of one real. -/
def ofReal (f : Float → Float) : Routine Unit := do
  let x ← popAs Float
  pushData (f x)

/-- An index into an array. -/
def index (i : Int64) : Routine Nat :=
  if i < 0 then failWith (.negativeIndex i) else pure i.toInt.toNat

/-- The reals in an array. -/
def reals (items : List Value) : Routine (List Float) :=
  match items with
  | [] => pure []
  | v :: rest => do
    let x ← read v
    let xs ← reals rest
    pure (x :: xs)

end Routine

namespace Intrinsic

open Routine

/-- Whether the floor of a real is an integer of the machine. -/
def hasIntegerFloor (floor : Float) : Bool :=
  floor.isFinite && (-9223372036854775808.0 ≤ floor && floor < 9223372036854775808.0)

/-- What a library function does. -/
def routine : Intrinsic → Routine Unit
  | .sqrt => ofReal Float.sqrt
  | .sin => ofReal Float.sin
  | .cos => ofReal Float.cos
  | .abs => ofReal Float.abs
  | .pow => do
    let exponent ← popAs Float
    let base ← popAs Float
    pushData (base.pow exponent)
  | .floor => do
    let floor := (← popAs Float).floor
    if hasIntegerFloor floor then pushData floor.toInt64 else failWith (.floorOutOfRange floor)
  | .toReal => do
    let n ← popAs Int64
    pushData n.toFloat
  | .write => do
    let v ← pop
    let line ← request (.text v)
    request (.write (line ++ "\n"))
  | .newArray => do
    let n ← popAs Int64
    if n < 0 then failWith (.negativeLength n)
    else
      let a ← request (.blankArray n.toInt.toNat)
      pushData a
  | .append => do
    let v ← pop
    let a ← popAs ArrayRef
    request (.append a v)
    pushData a
  | .arrayLength => do
    let a ← popAs ArrayRef
    let items ← request (.items a)
    pushData (Int64.ofNat items.size)
  | .getItem => do
    let i ← index (← popAs Int64)
    let a ← popAs ArrayRef
    let v ← request (.getItem a i)
    push v
  | .setItem => do
    let v ← pop
    let i ← index (← popAs Int64)
    let a ← popAs ArrayRef
    request (.setItem a i v)
    push v
  | .concat => do
    let b ← popAs String
    let a ← popAs String
    pushData (a ++ b)
  | .textLength => do
    let s ← popAs String
    pushData (Int64.ofNat s.length)
  | .bind => do
    let arg ← pop
    let func ← popAs Callable
    let thunk ← request (.newThunk func arg)
    pushData thunk
  | .adjustDash => do
    let cyclic ← popAs Bool
    let arclength ← popAs Float
    let width ← popAs Float
    let pattern ← popAs ArrayRef
    let lengths ← reals (← request (.items pattern)).toList
    let adjusted := PlotMachine.adjustDash lengths.toArray width arclength cyclic
    let a ← request (.newArray (adjusted.map .real))
    pushData a

end Intrinsic

end PlotMachine
