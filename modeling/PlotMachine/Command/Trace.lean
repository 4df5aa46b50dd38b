import PlotMachine.Text.Blank

/-!
# Tracing

An environment variable says whether the program reports on its work while it runs, and on what.
-/

namespace PlotMachine

/-- Whether a word is one of some words, with or without capitals. -/
def isOneOf (words : List String) (s : String) : Bool := words.contains s.toLower

/-- Whether the text of the variable switches tracing on. -/
def traceEnabled (setting : String) : Bool :=
  !isOneOf ["", "0", "false", "off"] (trim setting)

/-- What is to be traced, if the text of the variable says so. -/
def traceFilter (setting : String) : Option String :=
  if isOneOf ["", "1", "true", "on"] (trim setting) then none else some (trim setting)

end PlotMachine
