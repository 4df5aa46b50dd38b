/-!
# Dash patterns

A dashed line is drawn by repeating a pattern of dash and gap lengths. Drawn as it is, a pattern
would break off somewhere at the end of the path; `adjustDash` stretches it so that a whole number of
repetitions fits.
-/

namespace PlotMachine

/-- The greater of two reals, the second one if the first is not a number. -/
def atLeast (x least : Float) : Float :=
  if x.isNaN || x < least then least else x

/-- Stretches a dash pattern, given in pen widths, so that a whole number of repetitions covers a
path of the given length. A path that is not closed also ends with the first dash. Nothing is
stretched on a path of no length, and a pattern of no length is only scaled by the pen width. -/
def adjustDash (pattern : Array Float) (width arclength : Float) (cyclic : Bool) : Array Float :=
  match pattern[0]? with
  | none => pattern
  | some first =>
    if arclength == 0.0 then pattern
    else
      let scaled := pattern.map (· * width)
      let first := first * width
      let total := scaled.foldl (· + ·) 0.0
      let total := if !cyclic && first == 0.0 then total + 1.0e-3 * width else total
      if total ≤ 0.0 then scaled
      else
        let cycles := atLeast (arclength / total + 0.5).floor 1.0
        let lead := if cyclic then 0.0 else first
        let factor := arclength / (cycles * total + lead)
        scaled.map (· * factor)

end PlotMachine
