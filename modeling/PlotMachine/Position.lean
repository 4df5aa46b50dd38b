/-!
# Source positions

A `Position` says where in a source text an instruction came from, and a `SourceMap` assigns
positions to instruction offsets. An entry covers every offset from its own up to the next entry,
so a map needs one entry per change of position and not one per instruction.

The entries are kept in ascending order of offset, whatever the order in which they are recorded:
the place of a new entry, like the entry that covers an offset, is found by bisection.
-/

namespace PlotMachine

/-- A line and column of a source text. Line `0` means that no position was recorded. -/
structure Position where
  file : Option String := none
  line : Nat
  column : Nat
  deriving DecidableEq, Repr, Inhabited

namespace Position

/-- The position that stands for "none recorded". -/
def unknown : Position := { line := 0, column := 0 }

/-- A position is known when it has a line; lines count from one. -/
def isKnown (p : Position) : Bool := p.line != 0

/-- The text of a position: the file if it is recorded, the line and the column. -/
def text (p : Position) : String :=
  if p.isKnown then
    match p.file with
    | some file => s!"{file}:{p.line}:{p.column}"
    | none => s!"{p.line}:{p.column}"
  else "<unknown>"

end Position

/-- The place from `low` to `high` from which on a property of places no longer holds, found by
halving. The property has to hold of the places before some place, and of none after it. -/
def bisect (holds : Nat → Bool) (low high : Nat) : Nat :=
  if low < high then
    let middle := low + (high - low) / 2
    if holds middle then bisect holds (middle + 1) high else bisect holds low middle
  else low
termination_by high - low

/-- One line of a source map: from `offset` on, instructions stem from `position`. -/
structure SourceMap.Entry where
  offset : Nat
  position : Position
  deriving DecidableEq, Repr, Inhabited

/-- The positions of a piece of code, in ascending order of offset. -/
structure SourceMap where
  entries : List SourceMap.Entry := []
  deriving DecidableEq, Repr, Inhabited

namespace SourceMap

/-- How many entries begin at or before `offset`, in a map whose entries are in order. -/
def reach (m : SourceMap) (offset : Nat) : Nat :=
  bisect (fun i => m.entries[i]?.any (·.offset ≤ offset)) 0 m.entries.length

/-- Records `position` from `offset` on. Of two entries with one offset the later one stands
last. -/
def insert (m : SourceMap) (offset : Nat) (position : Position) : SourceMap :=
  { entries := m.entries.insertIdx (m.reach offset) ⟨offset, position⟩ }

/-- The position at `offset`: that of the last entry at or before it. -/
def positionAt (m : SourceMap) (offset : Nat) : Position :=
  match m.reach offset with
  | 0 => .unknown
  | last + 1 =>
    match m.entries[last]? with
    | some entry => entry.position
    | none => .unknown

/-- A map from entries in any order. -/
def ofEntries (entries : List Entry) : SourceMap :=
  entries.foldl (fun m e => m.insert e.offset e.position) {}

end SourceMap

end PlotMachine
