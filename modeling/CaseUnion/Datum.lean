import CaseUnion.Decimal.Binary64

/-!
# Structured data

Documents and configurations are written in several formats and read into one kind of data first.
A format may leave the type of an unquoted word open; such a word takes the type that is asked of
it (`Datum.plain`). What is well formed and still stands for no data can only be passed over
(`Datum.skippable`).
-/

namespace CaseUnion

inductive Format where
  | toml | json | yaml
  deriving DecidableEq, Repr

abbrev IsSigned64 (n : Int) : Prop := -0x8000000000000000 ≤ n ∧ n < 0x8000000000000000

abbrev IsUnsigned64 (n : Int) : Prop := 0 ≤ n ∧ n < 0x10000000000000000

/-- The integers that fit 128 bits with or without a sign. -/
abbrev IsWide (n : Int) : Prop :=
  -0x80000000000000000000000000000000 ≤ n ∧ n < 0x100000000000000000000000000000000

inductive Datum where
  | null
  | bool (value : Bool)
  | int (value : Int)
  | float (value : Decimal.Binary64)
  | text (value : String)
  /-- An unquoted word whose type is read off its use. -/
  | plain (word : String)
  | list (items : List Datum)
  /-- Entries in the order in which they are written; names may repeat. -/
  | table (entries : List (String × Datum))
  /-- A table whose names may be any data. -/
  | mapping (entries : List (Datum × Datum))
  /-- Something well formed that cannot be represented, such as a number out of range. -/
  | skippable
  deriving Repr, Inhabited

namespace Datum

mutual

def depth : Datum → Nat
  | .list items => depthOfItems items + 1
  | .table entries => depthOfEntries entries + 1
  | .mapping entries => depthOfPairs entries + 1
  | _ => 0

def depthOfItems : List Datum → Nat
  | [] => 0
  | d :: rest => max d.depth (depthOfItems rest)

def depthOfEntries : List (String × Datum) → Nat
  | [] => 0
  | (_, d) :: rest => max d.depth (depthOfEntries rest)

def depthOfPairs : List (Datum × Datum) → Nat
  | [] => 0
  | (name, d) :: rest => max (max name.depth d.depth) (depthOfPairs rest)

end

def isNullWord (word : String) : Bool :=
  ["", "~", "null", "Null", "NULL"].contains word

/-- An absent value: nothing, or an unquoted word for nothing. -/
def isNull : Datum → Bool
  | .null => true
  | .plain word => isNullWord word
  | _ => false

end Datum

inductive Fault where
  | unreadable (format : String)
  | missing (name : String)
  | repeated (name : String)
  | tooLong
  | mismatch (wanted : String)
  | typeRef (reason : String)
  deriving DecidableEq, Repr

def Fault.message : Fault → String
  | unreadable format => s!"not a {format} text"
  | missing name => s!"missing field '{name}'"
  | repeated name => s!"duplicate field '{name}'"
  | tooLong => "too many elements"
  | mismatch wanted => s!"expected {wanted}"
  | typeRef reason => reason

end CaseUnion
