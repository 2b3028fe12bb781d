import CaseUnion.Datum.Json

/-!
# TOML statements

A TOML text is a list of statements: headers that name a table, headers that add a table to a list,
and assignments of a value to a key. A key is a path of names. Inline tables are kept as
assignments too, so that one rule (`Toml.assign`) says what keys mean.
-/

namespace CaseUnion.Toml

abbrev Key := List String

inductive Value where
  | scalar (value : Datum)
  | list (items : List Value)
  | table (assignments : List (Key × Value))

inductive Statement where
  | header (key : Key)
  | listHeader (key : Key)
  | assignment (key : Key) (value : Value)

def isSpace (c : Char) : Bool := c == ' ' || c == '\t'

def skipSpaces (cs : List Char) : List Char := cs.dropWhile isSpace

def isText (c : Char) : Bool := c == '\t' || (0x20 ≤ c.toNat && c.toNat != 0x7f)

def afterLine? : List Char → Option (List Char)
  | [] => some []
  | '\n' :: rest => some rest
  | '\r' :: '\n' :: rest => some rest
  | _ => none

def skipComment : List Char → List Char
  | '#' :: rest => rest.dropWhile isText
  | cs => cs

/-- The next line, if nothing but a comment is left of this one. -/
def restOfLine? (cs : List Char) : Option (List Char) :=
  afterLine? (skipComment (skipSpaces cs))

def skipLines (inComment : Bool) : List Char → List Char
  | [] => []
  | '\n' :: rest => skipLines false rest
  | '\r' :: '\n' :: rest => skipLines false rest
  | c :: rest =>
    if inComment then if isText c then skipLines true rest else c :: rest
    else if c = '#' then skipLines true rest
    else if isSpace c then skipLines false rest
    else c :: rest

def unescape? : Char → Option Char
  | '/' => none
  | 'e' => some '\x1b'
  | c => Json.unescape? c

/-- A character given by its number, unless there is no such character. -/
def charOfCode? (code : Nat) : Option Char :=
  if code.isValidChar then some (Char.ofNat code) else none

/-- The characters of a quoted string up to its end, and what follows. A string of several lines
keeps the line ends in it, ends with three quotes, and after a backslash at the end of a line goes
on with the next character that is not blank (`isTrimming`). -/
def scanQuoted (hasLines isTrimming : Bool) : List Char → Option (List Char × List Char)
  | [] => none
  | '\\' :: 'x' :: a :: b :: rest => do
    let char ← charOfCode? (← Json.hex4? '0' '0' a b)
    let (cs, after) ← scanQuoted hasLines false rest
    return (char :: cs, after)
  | '\\' :: 'u' :: a :: b :: c :: d :: rest => do
    let char ← charOfCode? (← Json.hex4? a b c d)
    let (cs, after) ← scanQuoted hasLines false rest
    return (char :: cs, after)
  | '\\' :: 'U' :: a :: b :: c :: d :: e :: f :: g :: h :: rest => do
    let char ← charOfCode? ((← Json.hex4? a b c d) * 0x10000 + (← Json.hex4? e f g h))
    let (cs, after) ← scanQuoted hasLines false rest
    return (char :: cs, after)
  | '\\' :: c :: rest =>
    match unescape? c with
    | some char => do
      let (cs, after) ← scanQuoted hasLines false rest
      return (char :: cs, after)
    | none =>
      if hasLines && (afterLine? (skipSpaces (c :: rest))).isSome then
        scanQuoted hasLines true (c :: rest)
      else none
  | '"' :: rest =>
    if hasLines then
      match rest with
      | '"' :: '"' :: '"' :: '"' :: after => some (['"', '"'], after)
      | '"' :: '"' :: '"' :: after => some (['"'], after)
      | '"' :: '"' :: after => some ([], after)
      | rest => do
        let (cs, after) ← scanQuoted hasLines false rest
        return ('"' :: cs, after)
    else some ([], rest)
  | c :: rest =>
    let isLineEnd := c == '\n' || (c == '\r' && rest.head? == some '\n')
    if isTrimming && (isSpace c || isLineEnd) then scanQuoted hasLines true rest
    else if (hasLines && isLineEnd) || (isText c && c != '\\') then do
      let (cs, after) ← scanQuoted hasLines false rest
      return (c :: cs, after)
    else none

def scanLiteral (hasLines : Bool) : List Char → Option (List Char × List Char)
  | [] => none
  | '\'' :: rest =>
    if hasLines then
      match rest with
      | '\'' :: '\'' :: '\'' :: '\'' :: after => some (['\'', '\''], after)
      | '\'' :: '\'' :: '\'' :: after => some (['\''], after)
      | '\'' :: '\'' :: after => some ([], after)
      | rest => do
        let (cs, after) ← scanLiteral hasLines rest
        return ('\'' :: cs, after)
    else some ([], rest)
  | c :: rest =>
    let isLineEnd := c == '\n' || (c == '\r' && rest.head? == some '\n')
    if (hasLines && isLineEnd) || isText c then do
      let (cs, after) ← scanLiteral hasLines rest
      return (c :: cs, after)
    else none

/-- A string of several lines does not begin with the end of a line. -/
def skipFirstLineEnd : List Char → List Char
  | '\n' :: rest => rest
  | '\r' :: '\n' :: rest => rest
  | cs => cs

def scanString? : List Char → Option (String × List Char)
  | '"' :: '"' :: '"' :: rest =>
    (scanQuoted true false (skipFirstLineEnd rest)).map fun (cs, after) => (String.ofList cs, after)
  | '"' :: rest => (scanQuoted false false rest).map fun (cs, after) => (String.ofList cs, after)
  | '\'' :: '\'' :: '\'' :: rest =>
    (scanLiteral true (skipFirstLineEnd rest)).map fun (cs, after) => (String.ofList cs, after)
  | '\'' :: rest => (scanLiteral false rest).map fun (cs, after) => (String.ofList cs, after)
  | _ => none

def isBare (c : Char) : Bool := c.isAlphanum || c == '_' || c == '-'

def scanName? (cs : List Char) : Option (String × List Char) :=
  match cs with
  | '"' :: rest => (scanQuoted false false rest).map fun (cs, after) => (String.ofList cs, after)
  | '\'' :: rest => (scanLiteral false rest).map fun (cs, after) => (String.ofList cs, after)
  | cs =>
    let name := cs.takeWhile isBare
    if name.isEmpty then none else some (String.ofList name, cs.dropWhile isBare)

/-- Names separated by dots, at most `count` of them, and what follows the blanks behind them. -/
def scanNames : Nat → List Char → Option (Key × List Char)
  | 0, _ => none
  | count + 1, cs => do
    let (name, rest) ← scanName? (skipSpaces cs)
    match skipSpaces rest with
    | '.' :: more => do
      let (key, after) ← scanNames count more
      return (name :: key, after)
    | after => return ([name], after)

def scanKey? (cs : List Char) : Option (Key × List Char) := scanNames cs.length cs

def digits? (base : Nat) (behindDigit : Bool) : List Char → Option (List Char)
  | [] => if behindDigit then some [] else none
  | '_' :: rest => if behindDigit then digits? base false rest else none
  | c :: rest =>
    match Json.hexValue? c with
    | some d => if d < base then (digits? base true rest).map (c :: ·) else none
    | none => none

def valueInBase (base : Nat) (digits : List Char) : Nat :=
  digits.foldl (fun n c => n * base + (Json.hexValue? c).getD 0) 0

/-- Decimal digits in which no zero stands in front of others. -/
def wholeDigits? (cs : List Char) : Option (List Char) :=
  match digits? 10 false cs with
  | some ('0' :: _ :: _) => none
  | digits => digits

def inRange? (n : Int) : Option Datum := if IsWide n then some (.int n) else none

def splitSign : List Char → Option Bool × List Char
  | '-' :: rest => (some true, rest)
  | '+' :: rest => (some false, rest)
  | rest => (none, rest)

def float? (isNegative : Bool) (cs : List Char) : Option Datum := do
  let isMark (c : Char) : Bool := c == '.' || c == 'e' || c == 'E'
  let whole ← wholeDigits? (cs.takeWhile fun c => !isMark c)
  let (fraction, rest) ←
    match cs.dropWhile fun c => !isMark c with
    | '.' :: more =>
      let rest := more.dropWhile fun c => !isMark c
      (digits? 10 false (more.takeWhile fun c => !isMark c)).map (·, rest)
    | more => some ([], more)
  let exponent ←
    match rest with
    | [] => some (0 : Int)
    | '.' :: _ => none
    | _ :: more =>
      let (sign, digits) := splitSign more
      (digits? 10 false digits).map fun digits =>
        let value : Int := valueInBase 10 digits
        if sign = some true then -value else value
  let x := Decimal.Binary64.ofDecimal isNegative (valueInBase 10 (whole ++ fraction))
    (exponent - fraction.length)
  if x.isFinite then return .float x else none

def word? (word : List Char) : Option Datum :=
  let (sign, body) := splitSign word
  let isNegative := sign = some true
  match String.ofList body with
  | "true" => if sign.isNone then some (.bool true) else none
  | "false" => if sign.isNone then some (.bool false) else none
  | "inf" => some (.float (.infinity isNegative))
  | "nan" => some (.float .nan)
  | _ =>
    match body with
    | '0' :: 'x' :: digits =>
      if sign.isNone then (digits? 16 false digits).bind fun ds => inRange? (valueInBase 16 ds)
      else none
    | '0' :: 'o' :: digits =>
      if sign.isNone then (digits? 8 false digits).bind fun ds => inRange? (valueInBase 8 ds)
      else none
    | '0' :: 'b' :: digits =>
      if sign.isNone then (digits? 2 false digits).bind fun ds => inRange? (valueInBase 2 ds)
      else none
    | body =>
      match wholeDigits? body with
      | some digits =>
        let value : Int := valueInBase 10 digits
        inRange? (if isNegative then -value else value)
      | none => float? isNegative body

def isWordChar (c : Char) : Bool :=
  c.isAlphanum || c == '_' || c == '-' || c == '+' || c == '.' || c == ':'

mutual

/-- A value at the beginning of the text. Every step into it takes a character, so `count` bounds
their number. -/
def scanValue : (count : Nat) → List Char → Option (Value × List Char)
  | 0, _ => none
  | count + 1, '[' :: rest => do
    let (items, after) ← scanItems count (skipLines false rest)
    return (.list items, after)
  | count + 1, '\x7b' :: rest => do
    let (assignments, after) ← scanAssignments count (skipLines false rest)
    return (.table assignments, after)
  | _ + 1, cs =>
    match cs with
    | '"' :: _ | '\'' :: _ =>
      (scanString? cs).map fun (text, after) => (.scalar (.text text), after)
    | cs => (word? (cs.takeWhile isWordChar)).map fun d => (.scalar d, cs.dropWhile isWordChar)

/-- The items of a list up to its closing bracket. A comma may follow the last one. -/
def scanItems : (count : Nat) → List Char → Option (List Value × List Char)
  | 0, _ => none
  | _ + 1, ']' :: after => some ([], after)
  | count + 1, cs => do
    let (first, rest) ← scanValue count cs
    match skipLines false rest with
    | ']' :: after => return ([first], after)
    | ',' :: rest => do
      let (others, after) ← scanItems count (skipLines false rest)
      return (first :: others, after)
    | _ => none

/-- The assignments of an inline table up to its closing brace. A comma may follow the last one. -/
def scanAssignments : (count : Nat) → List Char → Option (List (Key × Value) × List Char)
  | 0, _ => none
  | _ + 1, '\x7d' :: after => some ([], after)
  | count + 1, cs => do
    match ← scanKey? cs with
    | (key, '=' :: rest) => do
      let (value, rest) ← scanValue count (skipSpaces rest)
      match skipLines false rest with
      | '\x7d' :: after => return ([(key, value)], after)
      | ',' :: rest => do
        let (others, after) ← scanAssignments count (skipLines false rest)
        return ((key, value) :: others, after)
      | _ => none
    | _ => none

end

mutual

def Value.depth : Value → Nat
  | .scalar _ => 0
  | .list items => depthOfItems items + 1
  | .table assignments => depthOfAssignments assignments + 1

def depthOfItems : List Value → Nat
  | [] => 0
  | v :: rest => max v.depth (depthOfItems rest)

def depthOfAssignments : List (Key × Value) → Nat
  | [] => 0
  | (_, v) :: rest => max v.depth (depthOfAssignments rest)

end

def nestingLimit : Nat := 80

def scanStatement : List Char → Option (Statement × List Char)
  | '[' :: '[' :: rest => do
    match ← scanKey? rest with
    | (key, ']' :: ']' :: after) => return (.listHeader key, after)
    | _ => none
  | '[' :: rest => do
    match ← scanKey? rest with
    | (key, ']' :: after) => return (.header key, after)
    | _ => none
  | cs => do
    match ← scanKey? cs with
    | (key, '=' :: rest) => do
      let (value, after) ← scanValue (rest.length + 1) (skipSpaces rest)
      if value.depth ≤ nestingLimit then return (.assignment key value, after) else none
    | _ => none

def scanUpTo : Nat → List Char → Option (List Statement)
  | 0, _ => none
  | count + 1, cs =>
    match skipLines false cs with
    | [] => some []
    | cs => do
      let (statement, rest) ← scanStatement cs
      let others ← scanUpTo count (← restOfLine? rest)
      return statement :: others

/-- The text behind a byte order mark, if it begins with one. -/
def skipMark : List Char → List Char
  | '\ufeff' :: rest => rest
  | cs => cs

def scan (cs : List Char) : Option (List Statement) := scanUpTo (cs.length + 1) (skipMark cs)

end CaseUnion.Toml
