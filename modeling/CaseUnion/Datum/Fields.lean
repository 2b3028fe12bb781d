import CaseUnion.Datum.Conventions

/-!
# Reading data by fields

A record is written as a table, or as a list that gives its fields in order where the conventions
allow it. Names that are not known are ignored, and a known name must not repeat.
-/

namespace CaseUnion

abbrev Fields := List (String × Datum)

namespace Datum

def asText : Datum → Except Fault String
  | .text value => .ok value
  | .plain word => .ok word
  | _ => .error (.mismatch "a text")

def asList : Datum → Except Fault (List Datum)
  | .list items => .ok items
  | .plain "" => .ok []
  | _ => .error (.mismatch "a list")

def asListOf {α : Type} (read : Datum → Except Fault α) (d : Datum) : Except Fault (List α) := do
  (← d.asList).mapM read

def asTable : Datum → Except Fault (List (String × Datum))
  | .table entries => .ok entries
  | .mapping entries => entries.mapM fun (name, value) => return (← name.asText, value)
  | .plain "" => .ok []
  | _ => .error (.mismatch "a table")

/-- The word that is written, or the one at the position that is. -/
def asWord (c : Conventions) (words : List String) : Datum → Except Fault String
  | .int n =>
    if c.isTyped && c.hasPositions && IsUnsigned64 n then .ok (words.getD n.toNat "")
    else .error (.mismatch "a word")
  | d => d.asText

def repeatedName? (known : List String) : List (String × Datum) → Option String
  | [] => none
  | (name, _) :: rest =>
    if known.contains name && rest.any (·.1 == name) then some name
    else repeatedName? known rest

def positional (c : Conventions) (known : List String) (items : List Datum) :
    Except Fault Fields :=
  match c.listUse with
  | .refused => .error (.mismatch "a table")
  | .bounded => if items.length ≤ known.length then .ok (known.zip items) else .error .tooLong
  | .unbounded => .ok (known.zip items)

def fields (c : Conventions) (known : List String) (d : Datum) : Except Fault Fields :=
  match d with
  | .list items => positional c known items
  | .mapping entries => do
    let named ← entries.mapM fun (name, value) => return (← name.asWord c known, value)
    distinct named
  | d => do distinct (← d.asTable)
where
  distinct (entries : Fields) : Except Fault Fields :=
    match repeatedName? known entries with
    | some name => .error (.repeated name)
    | none => .ok entries

/-- Reads a choice: its word, or an entry with its word as the name and nothing behind it. -/
def asChoice {α : Type} (c : Conventions) (word : α → String) (all : List α) (d : Datum) :
    Except Fault α := do
  let words := all.map word
  let written ←
    match d with
    | .table [(name, value)] =>
      if c.isEmptyChoice value then .ok name else .error (.mismatch "a word")
    | .mapping [(name, value)] =>
      if c.isEmptyChoice value then name.asWord c words else .error (.mismatch "a word")
    | d => d.asText
  match all.find? (word · == written) with
  | some choice => .ok choice
  | none => .error (.mismatch ("one of " ++ ", ".intercalate words))

def asTyped (c : Conventions) (d : Datum) : Except Fault Datum :=
  if c.isTyped then .ok d
  else
    match d.typed? with
    | none => .error (.mismatch "data that can be held")
    | some typed => if c.nestingLimit.all (typed.depth ≤ ·) then .ok typed else .error .tooLong

end Datum

namespace Fields

def required {α : Type} (f : Fields) (name : String) (read : Datum → Except Fault α) :
    Except Fault α :=
  match f.lookup name with
  | some d => read d
  | none => .error (.missing name)

def withDefault {α : Type} (f : Fields) (name : String) (default : α)
    (read : Datum → Except Fault α) : Except Fault α :=
  match f.lookup name with
  | some d => read d
  | none => .ok default

/-- A field that is absent when it is not written or stands for nothing. -/
def optional {α : Type} (f : Fields) (name : String) (read : Datum → Except Fault α) :
    Except Fault (Option α) :=
  match f.lookup name with
  | some d => if d.isNull then .ok none else some <$> read d
  | none => .ok none

end Fields
end CaseUnion
