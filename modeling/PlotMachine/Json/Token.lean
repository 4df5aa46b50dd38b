import PlotMachine.Json

/-!
# JSON tokens

The first stage of reading JSON. Numbers and texts are kept as they are written, since what they
denote matters only where they are used: a part of a document that nobody asks for has to be well
formed, but its numbers may be out of range and its texts need not denote characters.
-/

namespace PlotMachine.Json

/-- A number as it is written. -/
structure NumberText where
  negative : Bool
  /-- The digits before the point. -/
  whole : List Nat
  /-- The digits after the point. -/
  fraction : List Nat
  /-- Whether there is a point or an exponent. -/
  isReal : Bool
  /-- The sign and the digits of the exponent. -/
  exponentNegative : Bool
  exponent : List Nat
  deriving DecidableEq, Repr, Inhabited

/-- A piece of a text as it is written. -/
inductive TextPiece where
  | char (c : Char)
  /-- A UTF-16 unit given by its number. -/
  | unit (n : Nat)
  deriving DecidableEq, Repr, Inhabited

/-- A token. -/
inductive Token where
  | openArray | closeArray | openObject | closeObject | colon | comma
  | null
  | bool (b : Bool)
  | num (n : NumberText)
  | str (s : List TextPiece)
  deriving DecidableEq, Repr, Inhabited

/-- The value of a decimal digit. -/
def digit? (c : Char) : Option Nat :=
  if '0' ≤ c ∧ c ≤ '9' then some (c.toNat - '0'.toNat) else none

/-- The value of a hexadecimal digit. -/
def hexDigit? (c : Char) : Option Nat :=
  if '0' ≤ c ∧ c ≤ '9' then some (c.toNat - '0'.toNat)
  else if 'a' ≤ c ∧ c ≤ 'f' then some (c.toNat - 'a'.toNat + 10)
  else if 'A' ≤ c ∧ c ≤ 'F' then some (c.toNat - 'A'.toNat + 10)
  else none

/-- The digits at the start of a text, and the rest. -/
def digits : List Char → List Nat × List Char
  | [] => ([], [])
  | c :: rest =>
    match digit? c with
    | some d =>
      let (ds, rest) := digits rest
      (d :: ds, rest)
    | none => ([], c :: rest)

/-- The digits before the point: a single zero, or digits that do not start with zero. -/
def wholeDigits (cs : List Char) : Option (List Nat × List Char) :=
  match digits cs with
  | ([], _) => none
  | ([0], rest) => some ([0], rest)
  | (0 :: _, _) => none
  | (ds, rest) => some (ds, rest)

/-- The digits after the point, if there is one. -/
def fractionDigits : List Char → Option (Bool × List Nat × List Char)
  | '.' :: rest =>
    match digits rest with
    | ([], _) => none
    | (ds, rest) => some (true, ds, rest)
  | rest => some (false, [], rest)

/-- The sign of an exponent. -/
def exponentSign : List Char → Bool × List Char
  | '+' :: rest => (false, rest)
  | '-' :: rest => (true, rest)
  | rest => (false, rest)

/-- The exponent, if there is one. -/
def exponentDigits : List Char → Option (Bool × Bool × List Nat × List Char)
  | [] => some (false, false, [], [])
  | c :: rest =>
    if c = 'e' ∨ c = 'E' then
      let (negative, rest) := exponentSign rest
      match digits rest with
      | ([], _) => none
      | (ds, rest) => some (true, negative, ds, rest)
    else some (false, false, [], c :: rest)

/-- The number at the start of a text, after its sign. -/
def number (negative : Bool) (cs : List Char) : Option (NumberText × List Char) := do
  let (whole, cs) ← wholeDigits cs
  let (hasPoint, fraction, cs) ← fractionDigits cs
  let (hasExponent, exponentNegative, exponent, cs) ← exponentDigits cs
  return ({ negative, whole, fraction, isReal := hasPoint || hasExponent, exponentNegative,
            exponent }, cs)

/-- The number that four hexadecimal digits denote. -/
def hexUnit? (a b c d : Char) : Option Nat := do
  return ((← hexDigit? a) * 16 + (← hexDigit? b)) * 256 + ((← hexDigit? c) * 16 + (← hexDigit? d))

/-- The character that a letter after a backslash stands for. -/
def escaped? (c : Char) : Option Char :=
  if c = '"' then some '"'
  else if c = '\\' then some '\\'
  else if c = '/' then some '/'
  else if c = 'b' then some (Char.ofNat 8)
  else if c = 'f' then some (Char.ofNat 12)
  else if c = 'n' then some '\n'
  else if c = 'r' then some '\r'
  else if c = 't' then some '\t'
  else none

/-- A text up to its closing quote, and the rest. -/
def textPieces : List Char → Option (List TextPiece × List Char)
  | [] => none
  | '"' :: rest => some ([], rest)
  | '\\' :: 'u' :: a :: b :: c :: d :: rest => do
    let n ← hexUnit? a b c d
    let (pieces, rest) ← textPieces rest
    return (.unit n :: pieces, rest)
  | '\\' :: c :: rest => do
    let c ← escaped? c
    let (pieces, rest) ← textPieces rest
    return (.char c :: pieces, rest)
  | c :: rest => do
    guard (32 ≤ c.toNat ∧ c ≠ '\\')
    let (pieces, rest) ← textPieces rest
    return (.char c :: pieces, rest)

/-- The token at the start of a text that does not start with a blank. -/
def token : List Char → Option (Token × List Char)
  | '[' :: rest => some (.openArray, rest)
  | ']' :: rest => some (.closeArray, rest)
  | '\x7b' :: rest => some (.openObject, rest)
  | '\x7d' :: rest => some (.closeObject, rest)
  | ':' :: rest => some (.colon, rest)
  | ',' :: rest => some (.comma, rest)
  | 'n' :: 'u' :: 'l' :: 'l' :: rest => some (.null, rest)
  | 't' :: 'r' :: 'u' :: 'e' :: rest => some (.bool true, rest)
  | 'f' :: 'a' :: 'l' :: 's' :: 'e' :: rest => some (.bool false, rest)
  | '"' :: rest => (textPieces rest).map fun (s, rest) => (.str s, rest)
  | '-' :: rest => (number true rest).map fun (n, rest) => (.num n, rest)
  | cs => (number false cs).map fun (n, rest) => (.num n, rest)

/-- Whether a character may stand between tokens. -/
def isSpace (c : Char) : Bool := c = ' ' || c = '\n' || c = '\t' || c = '\r'

/-- The tokens of a text. Each one takes at least one character, so the length of the text is fuel
enough. -/
def tokensWithin : Nat → List Char → Option (List Token)
  | fuel, cs =>
    match cs.dropWhile isSpace, fuel with
    | [], _ => some []
    | _, 0 => none
    | cs, fuel + 1 => do
      let (t, rest) ← token cs
      return t :: (← tokensWithin fuel rest)

/-- The tokens of a text. -/
def tokens (s : String) : Option (List Token) := tokensWithin s.length s.toList

end PlotMachine.Json
