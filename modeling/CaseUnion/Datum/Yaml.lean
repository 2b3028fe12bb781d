import CaseUnion.Datum.Yaml.Core

/-!
# YAML

Documents are read with their words left open, and configurations with the types of YAML 1.2.
`Yaml.render` writes blocks, with every text in double quotes: the entries of a table, or the items
of a list, begin at the same column, and what belongs to an entry stands further to the right.
-/

namespace CaseUnion.Yaml

def parse? (text : String) : Option Datum := parseAs? .v11 text

def parseCore? (text : String) : Option Datum := (parseAs? .v12 text).bind core?

def escape (c : Char) : List Char :=
  if c.toNat = 0x7f || (0x80 ≤ c.toNat && c.toNat < 0xa0) || c.toNat = 0x2028 || c.toNat = 0x2029
      || c.toNat = 0xfeff || c.toNat = 0xfffe || c.toNat = 0xffff then
    let digit (n : Nat) : Char := Json.hexDigit (c.toNat / n % 16)
    ['\\', 'u', digit 4096, digit 256, digit 16, digit 1]
  else Json.escape c

def quote (s : String) : List Char := '"' :: (s.toList.flatMap escape ++ ['"'])

def isTextWord (word : String) : Bool :=
  match Datum.ofWord word with
  | .text _ => true
  | _ => false

/-- A name needs no quotes if it is made of letters and hyphens and read as a text. -/
def nameChars (name : String) : List Char :=
  match name.toList with
  | [] => quote name
  | c :: rest =>
    if c.isAlpha && rest.all (fun c => c.isAlpha || c == '-') && isTextWord name then c :: rest
    else quote name

def newLine (column : Nat) : List Char := '\n' :: List.replicate column ' '

/-- A name with the colon behind it. A long name needs a mark of its own. -/
def entryStart (column : Nat) (name : String) : List Char :=
  let cs := nameChars name
  if cs.length < 1000 then cs ++ [':'] else '?' :: ' ' :: cs ++ newLine column ++ [':']

def scalarChars : Datum → List Char
  | .text value => quote value
  | .plain word => quote word
  | .list _ => ['[', ']']
  | .table _ | .mapping _ => ['\x7b', '\x7d']
  | d => Json.scalarChars d

mutual

/-- A value behind the mark of an item, whose entries stand at a column. -/
def itemChars (column : Nat) : Datum → List Char
  | .table ((name, first) :: rest) =>
    entryStart column name ++ valueChars column first ++ entriesChars column rest
  | .list (first :: rest) =>
    ['-', ' '] ++ itemChars (column + 2) first ++ itemsChars column rest
  | d => scalarChars d

def valueChars (column : Nat) : Datum → List Char
  | .table (first :: rest) => entriesChars (column + 2) (first :: rest)
  | .list (first :: rest) => itemsChars (column + 2) (first :: rest)
  | d => ' ' :: scalarChars d

def entriesChars (column : Nat) : List (String × Datum) → List Char
  | [] => []
  | (name, d) :: rest =>
    newLine column ++ entryStart column name ++ valueChars column d ++ entriesChars column rest

def itemsChars (column : Nat) : List Datum → List Char
  | [] => []
  | d :: rest => newLine column ++ ['-', ' '] ++ itemChars (column + 2) d ++ itemsChars column rest

end

def render (d : Datum) : String := String.ofList (itemChars 0 d ++ ['\n'])

end CaseUnion.Yaml
