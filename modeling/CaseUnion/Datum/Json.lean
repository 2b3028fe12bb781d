import CaseUnion.Datum
import CaseUnion.Decimal.Shortest

/-!
# JSON

A JSON text is read in two steps. `Json.scan` takes it apart into tokens, and a reader goes over the
tokens once with a stack of the lists and tables that are still open. A number out of range and a
text with a lone surrogate are well formed and stand for no data. `Json.pretty` writes every element
and member on a line of its own, indented by two blanks.
-/

namespace CaseUnion.Json

inductive Token where
  | openList | closeList | openTable | closeTable | comma | colon
  /-- A text, unless it has a lone surrogate. -/
  | text (value : Option String)
  | scalar (value : Datum)

def isSpace (c : Char) : Bool := c == ' ' || c == '\t' || c == '\n' || c == '\r'

def hexValue? (c : Char) : Option Nat :=
  if c.isDigit then some (c.toNat - 48)
  else if 'a' ≤ c ∧ c ≤ 'f' then some (c.toNat - 87)
  else if 'A' ≤ c ∧ c ≤ 'F' then some (c.toNat - 55)
  else none

def hex4? (a b c d : Char) : Option Nat := do
  return (((← hexValue? a) * 16 + (← hexValue? b)) * 16 + (← hexValue? c)) * 16 + (← hexValue? d)

def unescape? : Char → Option Char
  | '"' => some '"'
  | '\\' => some '\\'
  | '/' => some '/'
  | 'b' => some '\x08'
  | 'f' => some '\x0c'
  | 'n' => some '\n'
  | 'r' => some '\r'
  | 't' => some '\t'
  | _ => none

/-- A character in front of the others, unless one of them could not be read. -/
def prepend (c : Char) (rest : Option (List Char) × List Char) :
    Option (List Char) × List Char :=
  (rest.1.map (c :: ·), rest.2)

/-- The characters of a string up to its closing quote, and what follows. A character beyond the
basic plane may be written as two surrogates; a text with a lone surrogate is well formed and has no
characters. -/
def scanText : List Char → Option (Option (List Char) × List Char)
  | [] => none
  | '"' :: rest => some (some [], rest)
  | '\\' :: 'u' :: a :: b :: c :: d :: '\\' :: 'u' :: e :: f :: g :: h :: rest => do
    let high ← hex4? a b c d
    let low ← hex4? e f g h
    if 0xD800 ≤ high && high < 0xDC00 && 0xDC00 ≤ low && low < 0xE000 then
      let char := Char.ofNat (0x10000 + (high - 0xD800) * 0x400 + (low - 0xDC00))
      prepend char <$> scanText rest
    else
      let (cs, after) ← scanText ('\\' :: 'u' :: e :: f :: g :: h :: rest)
      if high.isValidChar then return prepend (Char.ofNat high) (cs, after)
      else return (none, after)
  | '\\' :: 'u' :: a :: b :: c :: d :: rest => do
    let code ← hex4? a b c d
    let (cs, after) ← scanText rest
    if code.isValidChar then return prepend (Char.ofNat code) (cs, after)
    else return (none, after)
  | '\\' :: c :: rest => do
    let c ← unescape? c
    prepend c <$> scanText rest
  | c :: rest =>
    if c.toNat < 0x20 || c == '\\' then none
    else prepend c <$> scanText rest

def digitsValue (cs : List Char) : Nat := cs.foldl (fun n c => n * 10 + (c.toNat - 48)) 0

structure Numeral where
  isNegative : Bool
  whole : List Char
  fraction : Option (List Char)
  exponent : Option Int

/-- Adds digits to a significand as long as it fits a word of 64 bits, and counts the others. -/
def addWhole (significand : Nat) : List Char → Nat × Nat
  | [] => (significand, 0)
  | c :: rest =>
    let next := digitsValue [c] + significand * 10
    if IsUnsigned64 next then addWhole next rest else (significand, rest.length + 1)

/-- Adds digits behind the point as long as the significand fits, and leaves the others out. Each
makes the exponent one less. -/
def addFraction (significand : Nat) (exponent : Int) : List Char → Nat × Int
  | [] => (significand, exponent)
  | c :: rest =>
    let next := digitsValue [c] + significand * 10
    if IsUnsigned64 next then addFraction next (exponent - 1) rest else (significand, exponent)

/-- The exponent of the greatest power of ten that a number is scaled by at once. -/
def largestPower : Nat := 308

def power (exponent : Nat) : Decimal.Binary64 := .ofDecimal false 1 exponent

def scaleOnce? (x : Decimal.Binary64) (exponent : Int) : Option Decimal.Binary64 :=
  if exponent < 0 then some (x.div (power exponent.natAbs))
  else
    let scaled := x.mul (power exponent.toNat)
    if scaled.isFinite then some scaled else none

/-- A number times a power of ten, rounded at each step, unless the result is out of range. Each of
the steps divides by the greatest power; two such divisions take a word of 64 bits to zero. -/
def scale? : (steps : Nat) → Decimal.Binary64 → Int → Option Decimal.Binary64
  | 0, x, _ => some x
  | steps + 1, x, exponent =>
    if exponent.natAbs ≤ largestPower then scaleOnce? x exponent
    else if x.isZero then some x
    else if 0 < exponent then none
    else scale? steps (x.div (power largestPower)) (exponent + largestPower)

/-- The floating point number of a numeral: a significand of 64 bits, times a power of ten. -/
def Numeral.float? (n : Numeral) : Option Decimal.Binary64 :=
  let (whole, others) := addWhole 0 n.whole
  let (significand, exponent) := addFraction whole others (n.fraction.getD [])
  let x := scale? 3 (.ofDecimal false significand 0) (exponent + n.exponent.getD 0)
  x.map fun x => if n.isNegative then x.neg else x

/-- An integer that fits 64 bits stays an integer, everything else is a floating point number. -/
def Numeral.datum (n : Numeral) : Datum :=
  let whole := digitsValue n.whole
  let isWhole := n.fraction.isNone && n.exponent.isNone
  if isWhole && !n.isNegative && IsUnsigned64 whole then .int whole
  else if isWhole && n.isNegative && 0 < whole && IsSigned64 (-whole) then .int (-whole)
  else
    match n.float? with
    | some x => .float x
    | none => .skippable

def takeDigits (cs : List Char) : List Char × List Char :=
  (cs.takeWhile Char.isDigit, cs.dropWhile Char.isDigit)

def scanExponent : List Char → Option (Option Int × List Char)
  | c :: rest =>
    if c == 'e' || c == 'E' then
      let (isNegative, rest) :=
        match rest with
        | '-' :: more => (true, more)
        | '+' :: more => (false, more)
        | more => (false, more)
      let (digits, after) := takeDigits rest
      if digits.isEmpty then none
      else
        let value : Int := digitsValue digits
        some (some (if isNegative then -value else value), after)
    else some (none, c :: rest)
  | [] => some (none, [])

def scanFraction : List Char → Option (Option (List Char) × List Char)
  | '.' :: rest =>
    let (digits, after) := takeDigits rest
    if digits.isEmpty then none else some (some digits, after)
  | rest => some (none, rest)

/-- A numeral without its sign. No zero stands in front of other digits. -/
def scanUnsigned (isNegative : Bool) (cs : List Char) : Option (Datum × List Char) := do
  let (digits, rest) := takeDigits cs
  let (whole, rest) ←
    match digits with
    | [] => none
    | '0' :: more => some (['0'], more ++ rest)
    | digits => some (digits, rest)
  let (fraction, rest) ← scanFraction rest
  let (exponent, rest) ← scanExponent rest
  return ((Numeral.mk isNegative whole fraction exponent).datum, rest)

def after? : List Char → List Char → Option (List Char)
  | [], cs => some cs
  | w :: word, c :: cs => if w = c then after? word cs else none
  | _ :: _, [] => none

def scanToken : List Char → Option (Token × List Char)
  | [] => none
  | '[' :: rest => some (.openList, rest)
  | ']' :: rest => some (.closeList, rest)
  | '\x7b' :: rest => some (.openTable, rest)
  | '\x7d' :: rest => some (.closeTable, rest)
  | ',' :: rest => some (.comma, rest)
  | ':' :: rest => some (.colon, rest)
  | '"' :: rest => (scanText rest).map fun (cs, after) => (.text (cs.map String.ofList), after)
  | '-' :: rest => (scanUnsigned true rest).map fun (d, after) => (.scalar d, after)
  | 't' :: rest => (after? "rue".toList rest).map (.scalar (.bool true), ·)
  | 'f' :: rest => (after? "alse".toList rest).map (.scalar (.bool false), ·)
  | 'n' :: rest => (after? "ull".toList rest).map (.scalar .null, ·)
  | cs => (scanUnsigned false cs).map fun (d, after) => (.scalar d, after)

def scanUpTo : Nat → List Char → Option (List Token)
  | 0, _ => none
  | count + 1, cs =>
    match cs.dropWhile isSpace with
    | [] => some []
    | cs => do
      let (token, rest) ← scanToken cs
      let tokens ← scanUpTo count rest
      return token :: tokens

/-- The tokens of a text. Every token has at least one character. -/
def scan (cs : List Char) : Option (List Token) := scanUpTo (cs.length + 1) cs

abbrev Members := List (Option String × Datum)

/-- A table, if all of its names could be read. -/
def Members.datum (done : Members) : Datum :=
  match done.reverse.mapM fun (name, value) => name.map (·, value) with
  | some entries => .table entries
  | none => .skippable

/-- A list or table that is still open, with what it holds so far, last first. A table also has the
name whose value is being read. -/
inductive Opened where
  | list (done : List Datum)
  | table (done : Members) (name : Option String)

inductive Expecting where
  | value
  /-- The first element of a list, or its end. -/
  | element
  /-- The first name of a table, or its end. -/
  | member
  /-- A name after a comma. -/
  | name (done : Members)
  | colon (done : Members) (name : Option String)
  /-- A comma or an end after a value. -/
  | next (value : Datum)

structure Reading where
  opened : List Opened
  expecting : Expecting

namespace Reading

def start : Reading := ⟨[], .value⟩

/-- The reading behind a value. A text that could not be read is passed over. -/
def stepText (opened : List Opened) : Option String → Reading
  | some value => ⟨opened, .next (.text value)⟩
  | none => ⟨opened, .next .skippable⟩

def stepValue (opened : List Opened) : Token → Option Reading
  | .text value => some (stepText opened value)
  | .scalar value => some ⟨opened, .next value⟩
  | .openList => some ⟨.list [] :: opened, .element⟩
  | .openTable => some ⟨opened, .member⟩
  | _ => none

def stepName (opened : List Opened) (done : Members) : Token → Option Reading
  | .text name => some ⟨opened, .colon done name⟩
  | _ => none

def step (r : Reading) (t : Token) : Option Reading :=
  match r.expecting with
  | .value => stepValue r.opened t
  | .element =>
    match t, r.opened with
    | .closeList, .list _ :: outer => some ⟨outer, .next (.list [])⟩
    | t, opened => stepValue opened t
  | .member =>
    match t with
    | .closeTable => some ⟨r.opened, .next (.table [])⟩
    | t => stepName r.opened [] t
  | .name done => stepName r.opened done t
  | .colon done name =>
    match t with
    | .colon => some ⟨.table done name :: r.opened, .value⟩
    | _ => none
  | .next value =>
    match r.opened, t with
    | .list done :: outer, .comma => some ⟨.list (value :: done) :: outer, .value⟩
    | .list done :: outer, .closeList => some ⟨outer, .next (.list (value :: done).reverse)⟩
    | .table done name :: outer, .comma => some ⟨outer, .name ((name, value) :: done)⟩
    | .table done name :: outer, .closeTable =>
      some ⟨outer, .next (Members.datum ((name, value) :: done))⟩
    | _, _ => none

def run (r : Reading) : List Token → Option Reading
  | [] => some r
  | t :: rest =>
    match r.step t with
    | some next => next.run rest
    | none => none

def finish? (r : Reading) : Option Datum :=
  match r.opened, r.expecting with
  | [], .next value => some value
  | _, _ => none

end Reading

def ofTokens? (tokens : List Token) : Option Datum := (Reading.start.run tokens).bind (·.finish?)

def parse? (text : String) : Option Datum := (scan text.toList).bind ofTokens?

def hexDigit (n : Nat) : Char := if n < 10 then Char.ofNat (48 + n) else Char.ofNat (87 + n)

/-- A character inside a string. Only quotes, backslashes and controls are escaped. -/
def escape (c : Char) : List Char :=
  match c with
  | '"' => ['\\', '"']
  | '\\' => ['\\', '\\']
  | '\x08' => ['\\', 'b']
  | '\x0c' => ['\\', 'f']
  | '\n' => ['\\', 'n']
  | '\r' => ['\\', 'r']
  | '\t' => ['\\', 't']
  | c =>
    if c.toNat < 0x20 then
      ['\\', 'u', '0', '0', hexDigit (c.toNat / 16), hexDigit (c.toNat % 16)]
    else [c]

def quote (s : String) : List Char := '"' :: (s.toList.flatMap escape ++ ['"'])

def newLine (depth : Nat) : List Char := '\n' :: List.replicate (2 * depth) ' '

def scalarChars : Datum → List Char
  | .null => "null".toList
  | .bool value => (if value then "true" else "false").toList
  | .int value => (toString value).toList
  | .float value => value.text.toList
  | .text value => quote value
  | .plain word => quote word
  | _ => []

mutual

/-- A value whose first line stands at the given depth. -/
def prettyChars (depth : Nat) : Datum → List Char
  | .list [] => ['[', ']']
  | .list (first :: rest) =>
    '[' :: (newLine (depth + 1) ++ prettyChars (depth + 1) first ++
      prettyItems (depth + 1) rest ++ newLine depth ++ [']'])
  | .table [] => ['\x7b', '\x7d']
  | .table ((name, first) :: rest) =>
    '\x7b' :: (newLine (depth + 1) ++ quote name ++ [':', ' '] ++
      prettyChars (depth + 1) first ++ prettyEntries (depth + 1) rest ++ newLine depth ++ ['\x7d'])
  | d => scalarChars d

def prettyItems (depth : Nat) : List Datum → List Char
  | [] => []
  | d :: rest => ',' :: (newLine depth ++ prettyChars depth d ++ prettyItems depth rest)

def prettyEntries (depth : Nat) : List (String × Datum) → List Char
  | [] => []
  | (name, d) :: rest =>
    ',' :: (newLine depth ++ quote name ++ [':', ' '] ++ prettyChars depth d ++
      prettyEntries depth rest)

end

def pretty (d : Datum) : String := String.ofList (prettyChars 0 d)

end CaseUnion.Json
