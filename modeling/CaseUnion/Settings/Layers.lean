import CaseUnion.Datum.Words
import CaseUnion.Settings

/-!
# Layers of settings

Settings are gathered from a file and from environment variables, the latter on top. A layer is a
table; laying one over another replaces scalars and lists and goes into tables. A name may be the
path of something inside of tables and lists.
-/

namespace CaseUnion.Settings

def entriesOf : Option Datum → List (String × Datum)
  | some (.table entries) => entries
  | _ => []

def itemsOf : Option Datum → List Datum
  | some (.list items) => items
  | _ => []

/-- Puts an entry in the place of the one with its name, or behind all others. -/
def put (name : String) (value : Datum) : List (String × Datum) → List (String × Datum)
  | [] => [(name, value)]
  | (known, old) :: rest =>
    if known = name then (name, value) :: rest else (known, old) :: put name value rest

mutual

def overlay (old : Option Datum) : Datum → Datum
  | .table entries => .table (overlayEntries (entriesOf old) entries)
  | value => value

def overlayEntries (old : List (String × Datum)) :
    List (String × Datum) → List (String × Datum)
  | [] => old
  | (name, value) :: rest => overlayEntries (put name (overlay (old.lookup name) value) old) rest

end

inductive Step where
  | name (text : String)
  /-- A position in a list, counted from the end if it is negative. -/
  | index (position : Int)
  deriving DecidableEq, Repr

/-- The items with a place at a position, and the number of items in front of it. Missing items are
added behind the others, or in front of them if the position is before the first. -/
def makeRoom (position : Int) (items : List Datum) : List Datum × Nat :=
  if 0 ≤ position then
    (items ++ List.replicate (position.toNat + 1 - items.length) .null, position.toNat)
  else
    let place : Int := items.length + position
    (List.replicate (-place).toNat .null ++ items, place.toNat)

/-- Lays a value over the part of data at a path, making tables and lists on the way. -/
def overlayAt (value : Datum) : List Step → Option Datum → Datum
  | [], old => overlay old value
  | .name name :: path, old =>
    let entries := entriesOf old
    .table (put name (overlayAt value path (entries.lookup name)) entries)
  | .index position :: path, old =>
    let (items, place) := makeRoom position (itemsOf old)
    .list (items.modify place fun item => overlayAt value path (some item))

def isPathChar (c : Char) : Bool := c.isAlphanum || c == '_' || c == '-'

/-- An integer of 64 bits in brackets, and what follows the closing bracket. -/
def scanIndex? (cs : List Char) : Option (Int × List Char) :=
  let isBlank (c : Char) : Bool := c == ' ' || c == '\t'
  let inner := cs.dropWhile isBlank
  let (isNegative, digits) :=
    match inner with
    | '-' :: rest => (true, rest)
    | rest => (false, rest)
  let value := (Datum.digitsIn? 10 (digits.takeWhile Char.isDigit)).map fun n =>
    if isNegative then -(n : Int) else n
  match value, (digits.dropWhile Char.isDigit).dropWhile isBlank with
  | some n, ']' :: rest => if IsSigned64 n then some (n, rest) else none
  | _, _ => none

def scanSteps : (count : Nat) → List Char → Option (List Step)
  | _, [] => some []
  | 0, _ => none
  | count + 1, '.' :: rest =>
    let word := rest.takeWhile isPathChar
    if word.isEmpty then none
    else do
      let others ← scanSteps count (rest.dropWhile isPathChar)
      return .name (String.ofList word) :: others
  | count + 1, '[' :: rest => do
    let (position, rest) ← scanIndex? rest
    return .index position :: (← scanSteps count rest)
  | _, _ => none

/-- The path that a name stands for, such as `sources.include[0]`. A name that is not made in this
way is a step of its own. -/
def pathOfName (name : String) : List Step :=
  let word := name.toList.takeWhile isPathChar
  let steps := scanSteps name.length (name.toList.dropWhile isPathChar)
  match steps with
  | some steps => if word.isEmpty then [.name name] else .name (String.ofList word) :: steps
  | none => [.name name]

def layer (old : Datum) (entries : List (String × Datum)) : Datum :=
  entries.foldl (fun known (name, value) => overlayAt value (pathOfName name) (some known)) old

mutual

/-- Data in which of entries with the same name only the last one counts. -/
def settle : Datum → Datum
  | .list items => .list (settleItems items)
  | .table entries => .table (settleEntries entries)
  | d => d

def settleItems : List Datum → List Datum
  | [] => []
  | d :: rest => settle d :: settleItems rest

def settleEntries : List (String × Datum) → List (String × Datum)
  | [] => []
  | (name, d) :: rest =>
    if rest.any (·.1 == name) then settleEntries rest
    else (name, settle d) :: settleEntries rest

end

/-- An integer of signed 64 bits stays one; a larger one is a floating point number. -/
def narrow (n : Int) : Datum :=
  if IsSigned64 n then .int n else .float (.ofDecimal (n < 0) n.natAbs 0)

/-- The value of an environment variable: a truth value, an integer, a number or else a text. -/
def ofVariable (text : String) : Datum :=
  let cs := text.toList
  let lower := text.toLower
  let (isNegative, body) := Datum.signed cs
  if lower = "true" then .bool true
  else if lower = "false" then .bool false
  else
    match Datum.digitsIn? 10 body with
    | some n => narrow (if isNegative then -n else n)
    | none =>
      if ["inf", "infinity"].contains (String.ofList body).toLower then
        .float (.infinity isNegative)
      else if (String.ofList body).toLower = "nan" then .float .nan
      else
        match Datum.decimal? isNegative body with
        | some x => .float x
        | none => .text text

/-- The entry that an environment variable sets, if it is meant for the program: the letters are
made small, the name of the program is cut off, and two underscores separate levels. -/
def ofVariable? (name value : String) : Option (String × Datum) :=
  match Json.after? (programName ++ "_").toList name.toLower.toList with
  | some rest => some (".".intercalate ((String.ofList rest).splitOn "__"), ofVariable value)
  | none => none

end CaseUnion.Settings
