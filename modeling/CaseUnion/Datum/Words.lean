import CaseUnion.Datum.Json

/-!
# The types of unquoted words

An unquoted word is nothing, a truth value, an integer, a number or else a text. `Datum.typed?`
decides this for every word inside a piece of data, and refuses data that cannot be held.
-/

namespace CaseUnion.Datum

def digitsIn? (base : Nat) (cs : List Char) : Option Nat :=
  if cs.isEmpty then none
  else cs.foldlM (fun n c =>
    match Json.hexValue? c with
    | some d => if d < base then some (n * base + d) else none
    | none => none) 0

/-- An unsigned integer: decimal without leading zeros, or with a mark for another base. -/
def unsigned? : List Char → Option Nat
  | '0' :: 'x' :: rest => digitsIn? 16 rest
  | '0' :: 'o' :: rest => digitsIn? 8 rest
  | '0' :: 'b' :: rest => digitsIn? 2 rest
  | ['0'] => some 0
  | '0' :: _ => none
  | cs => digitsIn? 10 cs

def wordInteger? : List Char → Option Int
  | '-' :: rest => (unsigned? rest).map fun n => -(n : Int)
  | '+' :: rest => (unsigned? rest).map Int.ofNat
  | cs => (unsigned? cs).map Int.ofNat

/-- An unsigned integer of 64 bits, perhaps behind a plus sign. -/
def wordOffset? (word : String) : Option Nat :=
  let digits :=
    match word.toList with
    | '+' :: rest => rest
    | cs => cs
  (unsigned? digits).filter fun n => decide (IsUnsigned64 n)

def decimal? (isNegative : Bool) (cs : List Char) : Option Decimal.Binary64 :=
  let (whole, rest) := Json.takeDigits cs
  let (fraction, rest) :=
    match rest with
    | '.' :: more => Json.takeDigits more
    | more => ([], more)
  if whole.isEmpty && fraction.isEmpty then none
  else
    match Json.scanExponent rest with
    | some (exponent, []) =>
      some (.ofDecimal isNegative (Json.digitsValue (whole ++ fraction))
        (exponent.getD 0 - fraction.length))
    | _ => none

def signed (cs : List Char) : Bool × List Char :=
  match cs with
  | '-' :: rest => (true, rest)
  | '+' :: rest => (false, rest)
  | rest => (false, rest)

def wordFloat? (cs : List Char) : Option Decimal.Binary64 :=
  let (isNegative, body) := signed cs
  let word := String.ofList body
  if [".inf", ".Inf", ".INF"].contains word then some (.infinity isNegative)
  else if [".nan", ".NaN", ".NAN"].contains (String.ofList cs) then some .nan
  else
    match decimal? isNegative body with
    | some x => if x.isFinite then some x else none
    | none => none

/-- Digits with a zero in front of others are a text, with or without a sign. -/
def isPaddedNumber (word : String) : Bool :=
  match (signed word.toList).2 with
  | '0' :: digit :: rest => (digit :: rest).all Char.isDigit
  | _ => false

/-- The data that an unquoted word stands for when nothing is asked of it. An integer of more than
128 bits is a floating point number. -/
def ofWord (word : String) : Datum :=
  if isNullWord word then .null
  else if ["true", "True", "TRUE"].contains word then .bool true
  else if ["false", "False", "FALSE"].contains word then .bool false
  else if isPaddedNumber word then .text word
  else
    match (wordInteger? word.toList).filter fun n => decide (IsWide n) with
    | some n => .int n
    | none =>
      match wordFloat? word.toList with
      | some x => .float x
      | none => .text word

mutual

/-- Decides the type of every unquoted word. There is no result where an integer does not fit 64
bits or anything is skippable. -/
def typed? : Datum → Option Datum
  | .plain word => typedScalar? (ofWord word)
  | .list items => (typedItems? items).map .list
  | .table entries => (typedEntries? entries).map .table
  | .mapping entries => (typedPairs? entries).map .mapping
  | d => typedScalar? d
where
  typedScalar? : Datum → Option Datum
    | .int n => if IsSigned64 n ∨ IsUnsigned64 n then some (.int n) else none
    | .skippable => none
    | d => some d

def typedItems? : List Datum → Option (List Datum)
  | [] => some []
  | d :: rest => do return (← d.typed?) :: (← typedItems? rest)

def typedEntries? : List (String × Datum) → Option (List (String × Datum))
  | [] => some []
  | (name, d) :: rest => do return (name, ← d.typed?) :: (← typedEntries? rest)

def typedPairs? : List (Datum × Datum) → Option (List (Datum × Datum))
  | [] => some []
  | (name, d) :: rest => do return (← name.typed?, ← d.typed?) :: (← typedPairs? rest)

end

end CaseUnion.Datum
