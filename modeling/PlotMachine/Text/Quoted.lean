import PlotMachine.Text.Visible

/-!
# Quoted texts

A text between double quotes, in which every character without a glyph of its own is written as an
escape.
-/

namespace PlotMachine

/-- The written form of one character inside double quotes. -/
def quoteChar (c : Char) : String :=
  if c = '\t' then "\\t"
  else if c = '\r' then "\\r"
  else if c = '\n' then "\\n"
  else if c = '"' then "\\\""
  else if c = '\\' then "\\\\"
  else if c.toNat = 0 then "\\0"
  else if isVisible c then String.singleton c
  else "\\u\x7b" ++ String.ofList (Nat.toDigits 16 c.toNat) ++ "\x7d"

/-- A text between double quotes. -/
def quoted (s : String) : String :=
  "\"" ++ String.join (s.toList.map quoteChar) ++ "\""

end PlotMachine
