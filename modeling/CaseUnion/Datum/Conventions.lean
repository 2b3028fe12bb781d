import CaseUnion.Datum.Words

/-!
# Conventions of formats

The formats differ in what may stand for a record or a choice. Data of which the types are decided
before anything is asked of it (`Conventions.typed`) follows conventions of its own.
-/

namespace CaseUnion

/-- Whether a list may stand for a record. -/
inductive ListUse where
  | refused
  /-- With at most as many elements as the record has fields. -/
  | bounded
  /-- Elements behind the last field are ignored. -/
  | unbounded
  deriving DecidableEq, Repr

structure Conventions where
  listUse : ListUse
  /-- What may stand behind the word of a choice, if the word is written as the name of an entry. -/
  isEmptyChoice : Datum → Bool
  /-- Whether the types of words are decided. -/
  isTyped : Bool := false
  /-- Whether an integer may stand for a name by its position, once types are decided. -/
  hasPositions : Bool
  /-- How deep typed data may nest. -/
  nestingLimit : Option Nat

namespace Conventions

def json : Conventions where
  listUse := .bounded
  isEmptyChoice := Datum.isNull
  hasPositions := true
  nestingLimit := some 123

def toml : Conventions where
  listUse := .unbounded
  isEmptyChoice d :=
    match d with
    | .list [] | .table [] => true
    | _ => false
  hasPositions := false
  nestingLimit := none

def yaml : Conventions where
  listUse := .refused
  isEmptyChoice _ := false
  hasPositions := true
  nestingLimit := some 124

def ofFormat : Format → Conventions
  | .toml => toml
  | .json => json
  | .yaml => yaml

/-- The conventions of typed data from the same format. -/
def typed (c : Conventions) : Conventions :=
  { c with
    listUse := .bounded
    isTyped := true
    isEmptyChoice := fun
      | .null | .table [] | .mapping [] => true
      | _ => false }

end Conventions
end CaseUnion
