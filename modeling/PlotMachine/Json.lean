import PlotMachine.Decimal

/-!
# JSON values

Data in JSON, and its written form. Integers and other numbers are kept apart: a number with a point
or an exponent is not an integer, whatever its value.
-/

namespace PlotMachine

/-- A JSON value. -/
inductive Json where
  | null
  | bool (b : Bool)
  | int (n : Int)
  | real (x : Float)
  | str (s : String)
  | arr (items : List Json)
  | obj (fields : List (String × Json))
  deriving Inhabited

namespace Json

/-- Four hexadecimal digits. -/
def hex4 (n : Nat) : List Char :=
  let digits := Nat.toDigits 16 n
  List.replicate (4 - digits.length) '0' ++ digits

/-- The written form of one character of a text. -/
def escapeChar (c : Char) : List Char :=
  if c = '"' then ['\\', '"']
  else if c = '\\' then ['\\', '\\']
  else if c = '\n' then ['\\', 'n']
  else if c = '\r' then ['\\', 'r']
  else if c = '\t' then ['\\', 't']
  else if c.toNat = 8 then ['\\', 'b']
  else if c.toNat = 12 then ['\\', 'f']
  else if c.toNat < 32 then '\\' :: 'u' :: hex4 c.toNat
  else [c]

/-- The written form of a text. -/
def escape (s : String) : String := String.ofList ('"' :: s.toList.flatMap escapeChar ++ ['"'])

mutual

/-- The written form of a value, without blanks. -/
def render : Json → String
  | .null => "null"
  | .bool b => if b then "true" else "false"
  | .int n => toString n
  | .real x => numberText x
  | .str s => escape s
  | .arr items => "[" ++ ",".intercalate (renderItems items) ++ "]"
  | .obj fields => "\x7b" ++ ",".intercalate (renderFields fields) ++ "\x7d"

/-- The written forms of the items of an array. -/
def renderItems : List Json → List String
  | [] => []
  | v :: rest => v.render :: renderItems rest

/-- The written forms of the fields of an object. -/
def renderFields : List (String × Json) → List String
  | [] => []
  | (key, v) :: rest => (escape key ++ ":" ++ v.render) :: renderFields rest

end

/-- Adds a field to fields in ascending order of their keys, or replaces the one with that key. -/
def insertField (key : String) (v : Json) : List (String × Json) → List (String × Json)
  | [] => [(key, v)]
  | (k, w) :: rest =>
    if key < k then (key, v) :: (k, w) :: rest
    else if key = k then (key, v) :: rest
    else (k, w) :: insertField key v rest

end Json

end PlotMachine
