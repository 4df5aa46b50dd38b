import PlotMachine.Json.Token
import PlotMachine.Label
import PlotMachine.Settings

/-!
# Settings files

Settings are read from a text of lines in the manner of TOML. A line sets one of the limits to a
natural number, or is empty; a comment may follow. Numbers can be written in base ten, sixteen, eight
or two, with underscores between digits. A limit must not be set twice and nothing else may be set.
-/

namespace PlotMachine

/-- Why settings could not be read. -/
inductive SettingsError where
  | malformed
  deriving DecidableEq, Repr

/-- What is wrong, the outermost context first. -/
def SettingsError.chain : SettingsError → List String
  | .malformed => ["invalid VM configuration", "the text does not describe settings"]

namespace Settings

/-- Whether a character separates the parts of a line. -/
def isGap (c : Char) : Bool := c = ' ' || c = '\t'

/-- Whether a key that contains the character can do without quotes. -/
def isBare (c : Char) : Bool := c.isAlphanum || c = '_' || c = '-'

/-- The character with the number that hexadecimal digits denote. -/
def charOfHex? (digits : List Char) : Option Char := do
  let n ← digits.foldlM (fun n c => return n * 16 + (← Json.hexDigit? c)) 0
  if h : n.isValidChar then some (Char.ofNatAux n h) else none

/-- A key between double quotes, up to the closing quote. The only escapes that can be part of a
known key are those by number. -/
def quotedKey : List Char → Option (List Char × List Char)
  | '"' :: rest => some ([], rest)
  | '\\' :: 'u' :: a :: b :: c :: d :: rest => do
    let x ← charOfHex? [a, b, c, d]
    let (key, rest) ← quotedKey rest
    return (x :: key, rest)
  | '\\' :: 'U' :: a :: b :: c :: d :: e :: f :: g :: h :: rest => do
    let x ← charOfHex? [a, b, c, d, e, f, g, h]
    let (key, rest) ← quotedKey rest
    return (x :: key, rest)
  | '\\' :: _ => none
  | c :: rest => do
    let (key, rest) ← quotedKey rest
    return (c :: key, rest)
  | [] => none

/-- The key at the start of a line, and the rest. -/
def key : List Char → Option (String × List Char)
  | '"' :: rest => (quotedKey rest).map fun (k, rest) => (String.ofList k, rest)
  | '\x27' :: rest =>
    match rest.dropWhile (· != '\x27') with
    | '\x27' :: after => some (String.ofList (rest.takeWhile (· != '\x27')), after)
    | _ => none
  | cs => some (String.ofList (cs.takeWhile isBare), cs.dropWhile isBare)

/-- Whether underscores stand between digits only. -/
def wellSpaced : List Char → Bool
  | [] => false
  | ['_'] => false
  | '_' :: _ => false
  | [_] => true
  | _ :: '_' :: rest => wellSpaced rest
  | _ :: rest => wellSpaced rest

/-- The number that digits denote in a base. -/
def digitsIn (base : Nat) (cs : List Char) : Option Nat :=
  if wellSpaced cs then
    (cs.filter (· != '_')).foldlM (fun n c => do
      let d ← Json.hexDigit? c
      if d < base then some (n * base + d) else none) 0
  else none

/-- The number that decimal digits denote. There is no zero in front of other digits. -/
def decimal (cs : List Char) : Option Nat :=
  match cs with
  | '0' :: _ :: _ => none
  | _ => digitsIn 10 cs

/-- A natural number that fits a signed word. -/
def natural (cs : List Char) : Option Nat := do
  let n ← match cs with
    | '0' :: 'x' :: digits => digitsIn 16 digits
    | '0' :: 'o' :: digits => digitsIn 8 digits
    | '0' :: 'b' :: digits => digitsIn 2 digits
    | '+' :: digits => decimal digits
    | '-' :: digits => (decimal digits).filter (· == 0)
    | digits => decimal digits
  if (n : Int) ≤ maxSigned then some n else none

/-- Whether a character may be part of a comment. -/
def isCommentChar (c : Char) : Bool := c = '\t' || (32 ≤ c.toNat && c.toNat != 127)

/-- Whether what follows on a line says nothing. -/
def isRemark (cs : List Char) : Bool :=
  match cs.dropWhile isGap with
  | [] => true
  | '#' :: rest => rest.all isCommentChar
  | _ => false

/-- Whether a character may be part of a number. -/
def isNumberChar (c : Char) : Bool := c.isAlphanum || c = '_' || c = '+' || c = '-'

/-- The limit that a line sets, if it sets one. -/
def line (cs : List Char) : Option (Option (String × Nat)) :=
  if isRemark cs then some none
  else do
    let (k, rest) ← key (cs.dropWhile isGap)
    match rest.dropWhile isGap with
    | '=' :: rest =>
      let rest := rest.dropWhile isGap
      let n ← natural (rest.takeWhile isNumberChar)
      if isRemark (rest.dropWhile isNumberChar) then some (some (k, n)) else none
    | _ => none

/-- The lines of a text. A line ends with a line feed, with or without a carriage return before
it. -/
def lines (s : String) : List (List Char) :=
  let parts := (s.splitOn "\n").map String.toList
  let cut (cs : List Char) : List Char :=
    if cs.getLast? = some '\r' then cs.dropLast else cs
  parts.dropLast.map cut ++ parts.getLast?.toList

/-- Sets a limit that was not set before. -/
def set (entries : List (String × Nat)) : Option (String × Nat) → Option (List (String × Nat))
  | none => some entries
  | some (k, n) => if (entries.lookup k).isSome then none else some ((k, n) :: entries)

/-- The names of the limits. -/
def names : List String := ["max_call_depth", "initial_stack_capacity", "frame_pool_limit"]

/-- Reads a text of settings. -/
def parse? (s : String) : Option Settings := do
  let text := match s.toList with
    | c :: rest => if c.toNat = 0xfeff then String.ofList rest else s
    | [] => s
  let entries ← (lines text).foldlM (fun entries cs => do set entries (← line cs)) []
  guard (entries.all fun (k, _) => names.contains k)
  let preset : Settings := {}
  return {
    maxCallDepth := (entries.lookup "max_call_depth").getD preset.maxCallDepth
    stackCapacity := (entries.lookup "initial_stack_capacity").getD preset.stackCapacity
    poolLimit := (entries.lookup "frame_pool_limit").getD preset.poolLimit }

/-- Reads a text of settings. -/
def parse (s : String) : Except SettingsError Settings :=
  match parse? s with
  | some settings => .ok settings
  | none => .error .malformed

end Settings

end PlotMachine
