import PlotMachine.Label

/-!
# The stack

The values that instructions work on, and the limits that the current call is held to: it may pop
down to the floor and push up to the ceiling. The operations here move values and limits and check
nothing; the checks are made where a fault can be raised.
-/

namespace PlotMachine

/-- The stack of the machine. -/
structure Stack where
  /-- The values, bottom first. -/
  values : Array Value := #[]
  /-- How many values at the bottom are out of reach. -/
  floor : Nat := 0
  /-- The height at which nothing more can be pushed. -/
  ceiling : Nat := wordCount - 1
  /-- How many lambdas are running. -/
  depth : Nat := 0
  /-- How many lambdas may run inside each other. -/
  maxDepth : Nat
  deriving Inhabited

namespace Stack

/-- The number of values. -/
def height (s : Stack) : Nat := s.values.size

/-- How many values the current call may pop. -/
def available (s : Stack) : Nat := s.height - s.floor

/-- Whether nothing more can be pushed. -/
def isFull (s : Stack) : Bool := s.ceiling ≤ s.height

/-- The top value, if it is in reach. -/
def top? (s : Stack) : Option Value := if s.floor < s.height then s.values.back? else none

/-- Adds a value on top. -/
def push (s : Stack) (v : Value) : Stack := { s with values := s.values.push v }

/-- Removes the top value. -/
def drop (s : Stack) : Stack := { s with values := s.values.pop }

/-- Replaces the top value. -/
def setTop (s : Stack) (v : Value) : Stack := (s.drop).push v

/-- Removes what lies above a height. -/
def truncate (s : Stack) (height : Nat) : Stack := { s with values := s.values.take height }

/-- The values above a height, bottom first. -/
def above (s : Stack) (height : Nat) : Array Value := s.values.extract height s.height

/-- A push makes the stack one value higher. -/
@[simp] theorem height_push (s : Stack) (v : Value) : (s.push v).height = s.height + 1 := by
  simp [height, push]

/-- A drop makes the stack one value lower, if there is one. -/
@[simp] theorem height_drop (s : Stack) : s.drop.height = s.height - 1 := by
  simp [height, drop]

/-- A stack that is cut is no higher than the height it is cut at. -/
@[simp] theorem height_truncate (s : Stack) (n : Nat) : (s.truncate n).height = min n s.height := by
  simp [height, truncate]

/-- Dropping what was pushed last gives the stack back. -/
@[simp] theorem drop_push (s : Stack) (v : Value) : (s.push v).drop = s := by
  simp [push, drop]

/-- What was pushed last is on top. -/
theorem top?_push {s : Stack} (h : s.floor ≤ s.height) (v : Value) : (s.push v).top? = some v := by
  have reach : (s.push v).floor < (s.push v).height := by
    rw [height_push]
    exact Nat.lt_succ_of_le h
  rw [top?, if_pos reach]
  simp [push]

/-- A cut above the stack changes nothing. -/
theorem truncate_of_height_le {s : Stack} {n : Nat} (h : s.height ≤ n) : s.truncate n = s := by
  have whole : s.values.take n = s.values := by
    rw [Array.take_eq_extract]
    exact Array.extract_eq_self_of_le h
  rw [truncate, whole]

/-- Nothing lies above the height. -/
@[simp] theorem above_height (s : Stack) : s.above s.height = #[] := by
  simp [above, height]

/-- The values below a height and those above it make up the stack. -/
theorem truncate_append_above {s : Stack} {n : Nat} (h : n ≤ s.height) :
    (s.truncate n).values ++ s.above n = s.values := by
  have most : max n s.values.size = s.values.size := Nat.max_eq_right h
  simp [truncate, above, height, most]

/-- Puts all present values out of reach. -/
def raiseFloor (s : Stack) : Stack := { s with floor := s.height }

/-- Allows so many more values, as far as a word can count them. A lambda for which the buffer of the
stack has no capacity is not entered: that is looked at before (`Env.entryFits`). -/
def raiseCeiling (s : Stack) (headroom : Nat) : Stack :=
  { s with ceiling := min (s.height + headroom) (wordCount - 1) }

end Stack

end PlotMachine
