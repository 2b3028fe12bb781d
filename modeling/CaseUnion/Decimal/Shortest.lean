import CaseUnion.Decimal.Binary64

/-!
# The shortest decimal that reads back

The text of a binary number has the fewest digits that still determine it, and of those the nearest
to its value. Digits are searched on ever finer decimal grids: on each, only the two neighbours of
the value matter.
-/

namespace CaseUnion.Decimal

/-- The numbers that round to a given one, over a common denominator: the value, and the two ends,
which belong to the interval if `closed`. -/
structure Interval where
  value : Nat
  low : Nat
  high : Nat
  denominator : Nat
  closed : Bool

namespace Interval

/-- The interval of `m * 2 ^ e`. Below a power of two the neighbours are half as far apart. -/
def of (m : Nat) (e : Int) : Interval :=
  let up := 1 <<< e.toNat
  { value := 4 * m * up
    low := (4 * m - (if m = Binary64.leadingBit && e > -1074 then 1 else 2)) * up
    high := (4 * m + 2) * up
    denominator := 4 <<< (-e).toNat
    closed := m % 2 = 0 }

def holds (i : Interval) (scale unit candidate : Nat) : Bool :=
  let point := candidate * unit
  (i.low * scale < point || (i.closed && i.low * scale == point)) &&
    (point < i.high * scale || (i.closed && point == i.high * scale))

/-- The nearest multiple of `10 ^ j` in the interval, if one of the value's two neighbours on that
grid lies in it. Of two equally near the upper one is taken. -/
def onGrid? (i : Interval) (j : Int) : Option Nat :=
  let scale := Nat.pow 10 (-j).toNat
  let unit := i.denominator * Nat.pow 10 j.toNat
  let below := i.value * scale / unit
  let remainder := i.value * scale % unit
  match i.holds scale unit below, i.holds scale unit (below + 1) with
  | true, true => some (if 2 * remainder < unit then below else below + 1)
  | true, false => some below
  | false, true => some (below + 1)
  | false, false => none

def search (i : Interval) (j : Int) : Nat → Nat × Int
  | 0 => (i.value / i.denominator, 0)
  | count + 1 =>
    match i.onGrid? j with
    | some digits => (digits, j)
    | none => i.search (j - 1) count

end Interval

/-- The shortest digits and the exponent of ten of `m * 2 ^ e`, for positive `m`. -/
def shortest (m : Nat) (e : Int) : Nat × Int :=
  let i := Interval.of m e
  let top : Int := (Nat.toDigits 10 (i.value / i.denominator)).length
  i.search top (top + 330).toNat

/-- Digits in positional notation, without a point if there is nothing after it. -/
def positional (digits : Nat) (exponent : Int) : List Char :=
  let cs := Nat.toDigits 10 digits
  if 0 ≤ exponent then cs ++ List.replicate exponent.toNat '0'
  else
    let places := (-exponent).toNat
    let padded := List.replicate (places + 1 - cs.length) '0' ++ cs
    let whole := padded.length - places
    padded.take whole ++ '.' :: padded.drop whole

/-- The text of a number: never an exponent, no point for an integer, and a sign also for negative
zero. -/
def Binary64.text (x : Binary64) : String :=
  match x.decode with
  | .notANumber => "NaN"
  | .infinite isNegative => if isNegative then "-inf" else "inf"
  | .finite isNegative m e =>
    let sign := if isNegative then ['-'] else []
    let body := if m = 0 then ['0'] else let (digits, exponent) := shortest m e
      positional digits exponent
    String.ofList (sign ++ body)

end CaseUnion.Decimal
