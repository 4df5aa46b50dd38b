import PlotMachine.Value

/-!
# The frame arena

An arena remembers frames without keeping them in use. It serves to clear all frames that are still
in use when a machine is torn down, which is the only way to let go of frames that refer to each
other in a circle. Frames that fell out of use are forgotten from time to time, whenever the number
of entries has reached a threshold that doubles with what was left the last time.

Which frames are in use is not for the arena to know; every operation that depends on it is told.
-/

namespace PlotMachine

/-- The least threshold at which an arena forgets frames. -/
def pruneFloor : Nat := 64

/-- A list of frames, in the order in which they were entered; a frame may be entered twice. -/
structure Arena where
  entries : Array FrameRef := #[]
  /-- The number of entries at which unused frames are forgotten. -/
  pruneAt : Nat := pruneFloor
  deriving Inhabited

namespace Arena

/-- Enters a frame. -/
def register (a : Arena) (inUse : FrameRef → Bool) (f : FrameRef) : Arena :=
  let entries := a.entries.push f
  if a.pruneAt ≤ entries.size then
    let kept := entries.filter inUse
    { entries := kept, pruneAt := max (2 * kept.size) pruneFloor }
  else { a with entries }

/-- The entries whose frame is still in use. -/
def live (a : Arena) (inUse : FrameRef → Bool) : Array FrameRef := a.entries.filter inUse

end Arena

end PlotMachine
