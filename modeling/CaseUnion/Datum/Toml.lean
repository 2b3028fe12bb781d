import CaseUnion.Datum.Toml.Statement

/-!
# TOML

Statements are gathered into tables. A table remembers how it came to be, since a header must not
define a table twice and a dotted key must not reach into a table with a header. `Toml.render`
writes the lists of tables behind the other entries of a table, each of their tables under a
header.
-/

namespace CaseUnion.Toml

/-- How a table came to be. -/
inductive Origin where
  /-- By a header of its own. -/
  | header
  /-- By a header of a table inside it. -/
  | implied
  /-- By a dotted key. -/
  | dotted
  deriving DecidableEq

inductive Node where
  | closed (value : Datum)
  | table (origin : Origin) (entries : List (String × Node))
  /-- A list of tables: the finished ones, and the one that headers and keys still reach. -/
  | tables (finished : List (List (String × Node))) (last : List (String × Node))

abbrev Entries := List (String × Node)

/-- Puts a node in the place of the one with the same name, or behind all others. -/
def replace (name : String) (node : Node) : Entries → Entries
  | [] => [(name, node)]
  | (known, old) :: rest =>
    if known = name then (name, node) :: rest else (known, old) :: replace name node rest

/-- Changes the table that the path of a header leads to. Tables that do not exist are made. -/
def change (f : Entries → Option Entries) : Key → Entries → Option Entries
  | [], entries => f entries
  | name :: path, entries =>
    match entries.lookup name with
    | none => do return replace name (.table .implied (← change f path [])) entries
    | some (.table origin inner) => do
      return replace name (.table origin (← change f path inner)) entries
    | some (.tables finished last) => do
      return replace name (.tables finished (← change f path last)) entries
    | some (.closed _) => none

/-- Gives a value to a key that has none. The tables on the way have no header of their own, and the
last of them, if there is any, was made by a dotted key as well. -/
def assign (value : Datum) : Key → Entries → Option Entries
  | [], _ => none
  | [name], entries =>
    if (entries.lookup name).isSome then none else some (replace name (.closed value) entries)
  | name :: inner :: path, entries =>
    match entries.lookup name with
    | none => do return replace name (.table .dotted (← assign value (inner :: path) [])) entries
    | some (.table origin known) =>
      if origin = .dotted || (origin = .implied && !path.isEmpty) then do
        return replace name (.table origin (← assign value (inner :: path) known)) entries
      else none
    | some (.tables finished last) =>
      if path.isEmpty then none
      else do
        return replace name (.tables finished (← assign value (inner :: path) last)) entries
    | some (.closed _) => none

def define (key : Key) (entries : Entries) : Option Entries :=
  match key.getLast? with
  | none => none
  | some name =>
    change (fun inner =>
      match inner.lookup name with
      | none => some (replace name (.table .header []) inner)
      | some (.table .implied known) => some (replace name (.table .header known) inner)
      | _ => none) key.dropLast entries

def append (key : Key) (entries : Entries) : Option Entries :=
  match key.getLast? with
  | none => none
  | some name =>
    change (fun inner =>
      match inner.lookup name with
      | none => some (replace name (.tables [] []) inner)
      | some (.tables finished last) => some (replace name (.tables (finished ++ [last]) []) inner)
      | _ => none) key.dropLast entries

mutual

def Node.datum : Node → Datum
  | .closed value => value
  | .table _ entries => .table (datumEntries entries)
  | .tables finished last =>
    .list (datumTables finished ++ [.table (datumEntries last)])

def datumEntries : List (String × Node) → List (String × Datum)
  | [] => []
  | (name, node) :: rest => (name, node.datum) :: datumEntries rest

def datumTables : List (List (String × Node)) → List Datum
  | [] => []
  | entries :: rest => .table (datumEntries entries) :: datumTables rest

end

mutual

/-- The data of a value; inline tables follow the same rules for keys. -/
def Value.datum? : Value → Option Datum
  | .scalar value => some value
  | .list items => do return .list (← datumItems? items)
  | .table assignments => do return .table (datumEntries (← assignAll? [] assignments))

def datumItems? : List Value → Option (List Datum)
  | [] => some []
  | v :: rest => do return (← v.datum?) :: (← datumItems? rest)

def assignAll? (entries : Entries) : List (Key × Value) → Option Entries
  | [] => some entries
  | (key, value) :: rest => do assignAll? (← assign (← value.datum?) key entries) rest

end

structure Gathering where
  entries : Entries := []
  current : Key := []

def Gathering.step? (g : Gathering) : Statement → Option Gathering
  | .header key => do return ⟨← define key g.entries, key⟩
  | .listHeader key => do return ⟨← append key g.entries, key⟩
  | .assignment key value => do
    let value ← value.datum?
    return { g with entries := ← change (assign value key) g.current g.entries }

def parse? (text : String) : Option Datum := do
  let statements ← scan text.toList
  let g ← statements.foldlM Gathering.step? {}
  return .table (datumEntries g.entries)

/-- A character inside a string. Deletion is a control here as well. -/
def escape (c : Char) : List Char :=
  if c = '\x7f' then "\\u007f".toList else Json.escape c

def quote (s : String) : List Char := '"' :: (s.toList.flatMap escape ++ ['"'])

def nameChars (name : String) : List Char :=
  if !name.isEmpty && name.toList.all isBare then name.toList else quote name

def keyChars (key : Key) : List Char := ['.'].intercalate (key.map nameChars)

def scalarChars : Datum → List Char
  | .text value => quote value
  | .plain word => quote word
  | .null => quote ""
  | d => Json.scalarChars d

mutual

def inlineChars : Datum → List Char
  | .list items => '[' :: (inlineItems true items ++ [']'])
  | .table entries => '\x7b' :: (inlineEntries true entries ++ [' ', '\x7d'])
  | d => scalarChars d

def inlineItems (isFirst : Bool) : List Datum → List Char
  | [] => []
  | d :: rest => (if isFirst then [] else [',', ' ']) ++ inlineChars d ++ inlineItems false rest

def inlineEntries (isFirst : Bool) : List (String × Datum) → List Char
  | [] => []
  | (name, d) :: rest =>
    (if isFirst then [' '] else [',', ' ']) ++ nameChars name ++ " = ".toList ++ inlineChars d ++
      inlineEntries false rest

end

/-- A list of tables gets headers. -/
def isTables : Datum → Bool
  | .list items => !items.isEmpty && items.all fun
    | .table _ => true
    | _ => false
  | _ => false

def assignmentChars : List (String × Datum) → List Char
  | [] => []
  | (name, d) :: rest =>
    (if isTables d then [] else nameChars name ++ " = ".toList ++ inlineChars d ++ ['\n']) ++
      assignmentChars rest

mutual

/-- The entries of the table at a path that are lists of tables. -/
def sectionChars (path : Key) : List (String × Datum) → List Char
  | [] => []
  | (name, .list items) :: rest =>
    (if isTables (.list items) then tableChars (path ++ [name]) items else []) ++
      sectionChars path rest
  | _ :: rest => sectionChars path rest

def tableChars (path : Key) : List Datum → List Char
  | [] => []
  | .table entries :: rest =>
    "\n[[".toList ++ keyChars path ++ "]]\n".toList ++ assignmentChars entries ++
      sectionChars path entries ++ tableChars path rest
  | _ :: rest => tableChars path rest

end

def render : Datum → String
  | .table entries => String.ofList (assignmentChars entries ++ sectionChars [] entries)
  | _ => ""

end CaseUnion.Toml
