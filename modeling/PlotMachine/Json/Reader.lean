import PlotMachine.Json.Token

/-!
# Reading JSON

The second stage of reading JSON puts tokens together to a `Raw` document. A state machine reads one
token after the other and keeps the arrays and objects that are still open, so a document can be
nested to any depth.

The third stage gives a document a meaning: texts become characters, numbers become integers or
reals, and nesting is limited. Of two fields of an object with the same key the later one counts.
-/

namespace PlotMachine.Json

/-- A document as it is written. -/
inductive Raw where
  | null
  | bool (b : Bool)
  | num (n : NumberText)
  | str (s : List TextPiece)
  | arr (items : List Raw)
  | obj (fields : List (List TextPiece × Raw))
  deriving Inhabited

/-- An array or object that is still open, with what it holds so far, the last first. -/
inductive OpenPart where
  | arr (items : List Raw)
  | obj (fields : List (List TextPiece × Raw))
  /-- An object after a key. -/
  | field (fields : List (List TextPiece × Raw)) (key : List TextPiece)

/-- Where reading stands between two tokens, inside some open parts, the innermost first. -/
inductive ReadState where
  /-- Before a value. -/
  | value (inside : List OpenPart)
  /-- At the start of an array. -/
  | firstItem (inside : List OpenPart)
  /-- At the start of an object. -/
  | firstKey (inside : List OpenPart)
  /-- Before a key. -/
  | key (fields : List (List TextPiece × Raw)) (inside : List OpenPart)
  /-- After a key. -/
  | colon (inside : List OpenPart)
  /-- After an item or a field. -/
  | after (inside : List OpenPart)
  /-- After the whole document. -/
  | done (r : Raw)

namespace ReadState

/-- A value was read. -/
def complete (r : Raw) : List OpenPart → ReadState
  | [] => .done r
  | .arr items :: inside => .after (.arr (r :: items) :: inside)
  | .field fields k :: inside => .after (.obj ((k, r) :: fields) :: inside)
  | .obj fields :: inside => .after (.obj fields :: inside)

/-- Reads a token where a value is due. -/
def startValue (inside : List OpenPart) : Token → Option ReadState
  | .null => some (complete .null inside)
  | .bool b => some (complete (.bool b) inside)
  | .num n => some (complete (.num n) inside)
  | .str s => some (complete (.str s) inside)
  | .openArray => some (.firstItem inside)
  | .openObject => some (.firstKey inside)
  | _ => none

/-- Reads one token. -/
def next : ReadState → Token → Option ReadState
  | .value inside, t => startValue inside t
  | .firstItem inside, .closeArray => some (complete (.arr []) inside)
  | .firstItem inside, t => startValue (.arr [] :: inside) t
  | .firstKey inside, .closeObject => some (complete (.obj []) inside)
  | .firstKey inside, .str k => some (.colon (.field [] k :: inside))
  | .key fields inside, .str k => some (.colon (.field fields k :: inside))
  | .colon inside, .colon => some (.value inside)
  | .after (.arr items :: inside), .comma => some (.value (.arr items :: inside))
  | .after (.arr items :: inside), .closeArray => some (complete (.arr items.reverse) inside)
  | .after (.obj fields :: inside), .comma => some (.key fields inside)
  | .after (.obj fields :: inside), .closeObject => some (complete (.obj fields.reverse) inside)
  | _, _ => none

end ReadState

/-- The document a text denotes. -/
def read (s : String) : Option Raw := do
  match ← (← tokens s).foldlM ReadState.next (.value []) with
  | .done r => some r
  | _ => none

/-- The characters of a text. Two units that are a surrogate pair are one character, and a surrogate
by itself is none. -/
def characters : List TextPiece → Option (List Char)
  | [] => some []
  | .char c :: rest => (characters rest).map (c :: ·)
  | .unit n :: rest =>
    if 0xd800 ≤ n ∧ n < 0xdc00 then
      match rest with
      | .unit m :: rest =>
        if 0xdc00 ≤ m ∧ m < 0xe000 then
          (characters rest).map (Char.ofNat (0x10000 + (n - 0xd800) * 0x400 + (m - 0xdc00)) :: ·)
        else none
      | _ => none
    else if 0xdc00 ≤ n ∧ n < 0xe000 then none
    else (characters rest).map (Char.ofNat n :: ·)

/-- The text that pieces denote. -/
def textOf? (pieces : List TextPiece) : Option String := (characters pieces).map String.ofList

/-- The greatest unsigned 64-bit word. -/
def maxWord : Nat := 0xffffffffffffffff

/-- The greatest exponent that is told apart from larger ones. -/
def maxExponent : Nat := 0x7fffffff

/-- The number that digits denote after those of `n`, as far as it fits a word, and how many digits
were left over. -/
def significand (n : Nat) : List Nat → Nat × Nat
  | [] => (n, 0)
  | d :: rest => if n * 10 + d ≤ maxWord then significand (n * 10 + d) rest else (n, rest.length + 1)

/-- The number that digits denote, if it is not too great for an exponent. -/
def exponentValue? (digits : List Nat) : Option Nat :=
  let n := digits.foldl (fun n d => n * 10 + d) 0
  if n ≤ maxExponent then some n else none

/-- The power of ten with the given exponent. -/
def tenTo (n : Nat) : Float := Float.ofScientific 1 false n

/-- A real scaled by a power of ten, in steps that a real can take. The fuel bounds the steps that
make it smaller. -/
def scale : Nat → Float → Int → Option Float
  | 0, x, _ => some x
  | fuel + 1, x, e =>
    if e.natAbs ≤ 308 then
      if 0 ≤ e then
        let y := x * tenTo e.natAbs
        if y.isInf then none else some y
      else some (x / tenTo e.natAbs)
    else if x == 0.0 then some x
    else if 0 ≤ e then none
    else scale fuel (x / tenTo 308) (e + 308)

/-- The value of a real that is written with a point, an exponent, or too many digits for an
integer. Digits beyond those that fit a word count as zeros. -/
def realValue (t : NumberText) : Option Float := do
  let (n, skipped) := significand 0 t.whole
  let (m, dropped) := significand n t.fraction
  let places : Int := skipped - (t.fraction.length - dropped)
  let magnitude ← match exponentValue? t.exponent with
    | some e => do
      let e : Int := if t.exponentNegative then places - e else places + e
      let bound : Int := maxExponent
      let e := max (-bound - 1) (min bound e)
      scale (e.natAbs / 308 + 2) m.toUInt64.toFloat e
    | none => if m ≠ 0 && !t.exponentNegative then none else some 0.0
  return if t.negative then -magnitude else magnitude

/-- The value of a number: an integer if it is written as one and fits a word, signed or not. -/
def numberValue (t : NumberText) : Option Json :=
  let (n, skipped) := significand 0 t.whole
  if t.isReal || skipped ≠ 0 then (realValue t).map .real
  else if !t.negative then some (.int n)
  else if 0 < n ∧ n ≤ 0x8000000000000000 then some (.int (-n))
  else some (.real (-n.toUInt64.toFloat))

mutual

/-- The value a document denotes, if it is nested no deeper than the limit. -/
def Raw.value? (limit : Nat) : Raw → Option Json
  | .null => some .null
  | .bool b => some (.bool b)
  | .num n => numberValue n
  | .str s => (textOf? s).map .str
  | .arr items =>
    match limit with
    | 0 => none
    | limit + 1 => (itemValues? limit items).map .arr
  | .obj fields =>
    match limit with
    | 0 => none
    | limit + 1 => (fieldValues? limit fields).map fun fields =>
      .obj (fields.foldl (fun sorted (key, v) => insertField key v sorted) [])

/-- The values of the items of an array. -/
def itemValues? (limit : Nat) : List Raw → Option (List Json)
  | [] => some []
  | r :: rest => do return (← r.value? limit) :: (← itemValues? limit rest)

/-- The values of the fields of an object. -/
def fieldValues? (limit : Nat) : List (List TextPiece × Raw) → Option (List (String × Json))
  | [] => some []
  | (key, r) :: rest => do return (← textOf? key, ← r.value? limit) :: (← fieldValues? limit rest)

end

end PlotMachine.Json
