/-!
# The shortest decimal of a real

A binary64 number is written with the fewest decimal digits that read back as the same number.
`Binary.ofFloat?` takes a finite number apart into `m * 2 ^ q`. All numbers that round to it form an
interval; `Binary.interval` gives the number and the two ends of that interval on one decimal grid,
fine enough to hold all three exactly. `coarsest` then looks for the coarsest power of ten with a
multiple inside the interval and takes the multiple nearest to the number. Two multiples can be
equally near; a `Tie` says which one is taken then.

`realText` and `numberText` are the two written forms that use it: plain positional digits for
display, and a form with an exponent for very large and very small numbers in data files. The first
takes the upper one of two multiples that are equally near, the second the even one.
-/

namespace PlotMachine

/-- The decimal number `digits * 10 ^ exponent`. -/
structure Decimal where
  digits : Nat
  exponent : Int
  deriving DecidableEq, Repr, Inhabited

/-- A positive binary64 number `mantissa * 2 ^ exponent`. The flag tells whether the number below
it is only half as far away as the number above it. -/
structure Binary where
  mantissa : Nat
  exponent : Int
  narrowBelow : Bool
  deriving DecidableEq, Repr, Inhabited

/-- Which of two neighbouring multiples is taken when they are equally near. -/
inductive Tie where
  | upper | even
  deriving DecidableEq, Repr, Inhabited

/-- Whether the upper neighbour is taken of a number that lies half way above the multiple `below`. -/
def Tie.goesUp (tie : Tie) (below : Nat) : Bool :=
  match tie with
  | .upper => true
  | .even => below % 2 == 1

namespace Binary

/-- The magnitude of a finite, nonzero real. -/
def ofFloat? (x : Float) : Option Binary :=
  let bits : Nat := x.toBits.toNat
  let exponent : Nat := bits / Nat.pow 2 52 % Nat.pow 2 11
  let fraction : Nat := bits % Nat.pow 2 52
  if exponent = 2047 then none
  else if exponent = 0 then
    if fraction = 0 then none else some ⟨fraction, -1074, false⟩
  else some ⟨Nat.pow 2 52 + fraction, (exponent : Int) - 1075, fraction == 0 && 1 < exponent⟩

/-- A number together with the two ends of the interval of reals that round to it, as multiples of
one power of ten. -/
structure Interval where
  low : Nat
  value : Nat
  high : Nat
  /-- The exponent of that power of ten. -/
  exponent : Int
  /-- Whether the ends themselves round to the number. -/
  closed : Bool
  deriving DecidableEq, Repr

/-- The interval of reals that round to a number. In units of a quarter of the distance to the next
number, the number is `4 * m`, the upper end two units above it, and the lower end two units or
one unit below it. A power of two with negative exponent is a power of five over a power of ten. -/
def interval (b : Binary) : Interval :=
  let scale (n : Nat) : Nat :=
    if b.exponent < 2 then n * Nat.pow 5 (2 - b.exponent).toNat
    else n * Nat.pow 2 (b.exponent - 2).toNat
  { low := scale (4 * b.mantissa - if b.narrowBelow then 1 else 2)
    value := scale (4 * b.mantissa)
    high := scale (4 * b.mantissa + 2)
    exponent := min (b.exponent - 2) 0
    closed := b.mantissa % 2 == 0 }

/-- Whether a number lies in an interval. -/
def Interval.holds (i : Interval) (n : Nat) : Bool :=
  if i.closed then i.low ≤ n && n ≤ i.high else i.low < n && n < i.high

/-- The multiple of `unit` in the interval that is nearest to its value. -/
def Interval.multiple? (i : Interval) (tie : Tie) (unit : Nat) : Option Nat :=
  let below := i.value / unit
  let rest := i.value % unit
  match i.holds (below * unit), i.holds ((below + 1) * unit) with
  | true, true =>
    if unit < 2 * rest ∨ (unit = 2 * rest ∧ tie.goesUp below) then some (below + 1) else some below
  | true, false => some below
  | false, true => some (below + 1)
  | false, false => none

/-- The coarsest decimal grid from `10 ^ j` downwards that meets the interval, with its point
nearest to the value. The finest grid holds the value itself. -/
def Interval.coarsest (i : Interval) (tie : Tie) : Nat → Decimal
  | 0 => ⟨i.value, i.exponent⟩
  | j + 1 =>
    match i.multiple? tie (Nat.pow 10 (j + 1)) with
    | some digits => ⟨digits, i.exponent + (j + 1)⟩
    | none => i.coarsest tie j

/-- The number of decimal digits of a natural number. -/
def digitCount (n : Nat) : Nat := (Nat.toDigits 10 n).length

/-- The shortest decimal that reads back as the number. -/
def shortest (b : Binary) (tie : Tie) : Decimal :=
  let i := b.interval
  i.coarsest tie (digitCount i.value)

end Binary

namespace Decimal

/-- The decimal without trailing zeros in its digits; the fuel bounds how many are dropped. -/
def stripZeros : Nat → Decimal → Decimal
  | 0, d => d
  | fuel + 1, d =>
    if d.digits % 10 = 0 && d.digits != 0 then stripZeros fuel ⟨d.digits / 10, d.exponent + 1⟩ else d

/-- The digits of a decimal without trailing zeros, and its exponent. -/
def normal (d : Decimal) : List Char × Int :=
  let n := stripZeros (Binary.digitCount d.digits) d
  (Nat.toDigits 10 n.digits, n.exponent)

/-- The positional form: no exponent, no trailing zeros, no point in a whole number. -/
def positional (d : Decimal) : String :=
  let (digits, exponent) := d.normal
  if 0 ≤ exponent then String.ofList (digits ++ List.replicate exponent.toNat '0')
  else
    let places := (-exponent).toNat
    let padded := List.replicate (places + 1 - digits.length) '0' ++ digits
    let whole := padded.length - places
    String.ofList (padded.take whole ++ '.' :: padded.drop whole)

/-- The form for data files: a point is always shown in positional form, and numbers from `10 ^ 16`
on or below `10 ^ -5` have an exponent. -/
def scientific (d : Decimal) : String :=
  let (digits, exponent) := d.normal
  let top := digits.length + exponent
  if 0 ≤ exponent && top ≤ 16 then d.positional ++ ".0"
  else if -5 < top && top ≤ 16 then d.positional
  else
    let mantissa := match digits with
      | [c] => [c]
      | c :: rest => c :: '.' :: rest
      | [] => ['0']
    String.ofList mantissa ++ "e" ++ toString (top - 1)

end Decimal

/-- Whether the sign bit of a real is set. -/
def signBit (x : Float) : Bool := x.toBits.toNat / Nat.pow 2 63 == 1

/-- The text of a real for display: the shortest decimal, in positional form. -/
def realText (x : Float) : String :=
  if x.isNaN then "NaN"
  else
    let magnitude :=
      if x.isInf then "inf"
      else match Binary.ofFloat? x with
        | some b => (b.shortest .upper).positional
        | none => "0"
    if signBit x then "-" ++ magnitude else magnitude

/-- The text of a finite real in a data file. -/
def numberText (x : Float) : String :=
  let magnitude := match Binary.ofFloat? x with
    | some b => (b.shortest .even).scientific
    | none => "0.0"
  if signBit x then "-" ++ magnitude else magnitude

end PlotMachine
