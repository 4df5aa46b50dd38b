import PlotMachine.Command.Execute

/-!
# The command line

Reads the files that the arguments name, and prints what the program answers.
-/

open PlotMachine

/-- The text of a file, if it can be read. -/
def readText (path : String) : IO (Option String) := do
  try return some (← IO.FS.readFile path) catch _ => return none

/-- Runs the program. -/
def main (args : List String) : IO UInt32 := do
  match parseArguments args with
  | none =>
    IO.eprint helpText
    return 2
  | some order =>
    let files ← order.paths.mapM fun path => return (path, ← readText path)
    let report := order.report fun path => (files.lookup path).join
    IO.print report.output
    match report.error with
    | none => return 0
    | some e =>
      IO.eprintln ("Error: " ++ ": ".intercalate e.chain)
      return 1
