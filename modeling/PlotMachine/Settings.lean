/-!
# Settings

The limits a machine is run with.
-/

namespace PlotMachine

/-- The limits of a machine. -/
structure Settings where
  /-- How many lambdas may run inside each other. -/
  maxCallDepth : Nat := 1024
  /-- How many values there is room for on the stack before it has to grow. -/
  stackCapacity : Nat := 256
  /-- How many frame buffers are kept for reuse. -/
  poolLimit : Nat := 256
  deriving DecidableEq, Repr, Inhabited

end PlotMachine
