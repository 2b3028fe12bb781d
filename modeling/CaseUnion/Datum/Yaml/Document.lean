import CaseUnion.Datum
import CaseUnion.Datum.Yaml.Token

/-!
# YAML documents

The data that tokens stand for. A text holds one document, or none, which is an empty table. Words
keep their types open, and names may be any data. An alias stands for the data behind its anchor;
one inside of that data has no meaning.
-/

namespace CaseUnion.Yaml

structure Composing where
  tokens : List Token
  anchors : List (String × Datum) := []

abbrev Composer := StateT Composing Option

namespace Composer

def peek : Composer (Option Token) := return (← get).tokens.head?

def skip : Composer Unit := modify fun s => { s with tokens := s.tokens.drop 1 }

def isNext (tokens : List Token) : Composer Bool := do
  return ((← peek).map (tokens.contains ·)).getD false

def separator (isFirst : Bool) : Composer Unit := do
  if isFirst then return ()
  else if ← isNext [.comma] then skip
  else failure

def nothing : Datum := .plain ""

def bindAnchor (name : Option String) (d : Datum) : Composer Unit :=
  modify fun s => { s with anchors := (name.map (·, d)).toList ++ s.anchors }

def properties : Composer (Option String × Option Tag) := do
  match (← get).tokens with
  | .anchor name :: .tag tag :: _ | .tag tag :: .anchor name :: _ =>
    skip
    skip
    return (some name, some tag)
  | .anchor name :: _ =>
    skip
    return (some name, none)
  | .tag tag :: _ =>
    skip
    return (none, some tag)
  | _ => return (none, none)

/-- The data with a tag. YAML 1.1 has no data for a tag of its own; YAML 1.2 takes it as a text. -/
def withTag (v : Version) (tag : Option Tag) (d : Datum) : Datum :=
  let asText : Datum :=
    match d with
    | .plain word => .text word
    | d => d
  match tag with
  | none | some .core => d
  | some .text => asText
  | some .custom => if v == .v11 then .skippable else asText

mutual

/-- A value. Items of a list without an indentation of their own may be the value of an entry. -/
def value (v : Version) : (count : Nat) → (isBlock allowsItems : Bool) → Composer Datum
  | 0, _, _ => failure
  | count + 1, isBlock, allowsItems => do
    if let some (.alias name) ← peek then
      skip
      match (← get).anchors.lookup name with
      | some d => return d
      | none => failure
    let (anchor, tag) ← properties
    bindAnchor anchor .skippable
    let d ← content v count isBlock allowsItems (anchor.isSome || tag.isSome)
    let d := withTag v tag d
    bindAnchor anchor d
    return d

def content (v : Version) :
    (count : Nat) → (isBlock allowsItems hasProperties : Bool) → Composer Datum
  | 0, _, _, _ => failure
  | count + 1, isBlock, allowsItems, hasProperties => do
    match ← peek, isBlock, allowsItems with
    | some (.scalar isPlain text), _, _ =>
      skip
      return if isPlain then .plain text else .text text
    | some .item, _, true => return .list (← items v count false)
    | some .blockList, true, _ =>
      skip
      return .list (← items v count true)
    | some .blockTable, true, _ =>
      skip
      return .mapping (← entries v count)
    | some .openList, _, _ =>
      skip
      return .list (← flowItems v count true)
    | some .openTable, _, _ =>
      skip
      return .mapping (← flowEntries v count true)
    | _, _, _ => if hasProperties then return nothing else failure

/-- A value, unless one of some tokens shows that none is written. -/
def valueBefore (v : Version) :
    (count : Nat) → (isBlock allowsItems : Bool) → List Token → Composer Datum
  | 0, _, _, _ => failure
  | count + 1, isBlock, allowsItems, ends => do
    if ← isNext ends then return nothing else value v count isBlock allowsItems

def valueOfName (v : Version) :
    (count : Nat) → (isBlock : Bool) → List Token → Composer Datum
  | 0, _, _ => failure
  | count + 1, isBlock, ends => do
    if ← isNext [.value] then
      skip
      valueBefore v count isBlock isBlock ends
    else return nothing

def items (v : Version) : (count : Nat) → (isIndented : Bool) → Composer (List Datum)
  | 0, _ => failure
  | count + 1, isIndented => do
    if ← isNext [.item] then
      skip
      let ends : List Token :=
        if isIndented then [.item, .blockEnd] else [.item, .name, .value, .blockEnd]
      let first ← valueBefore v count true false ends
      return first :: (← items v count isIndented)
    else if !isIndented then return []
    else if ← isNext [.blockEnd] then
      skip
      return []
    else failure

/-- The entries of a block. In YAML 1.2 a name may be missing. -/
def entries (v : Version) : (count : Nat) → Composer (List (Datum × Datum))
  | 0 => failure
  | count + 1 => do
    let ends : List Token := [.name, .value, .blockEnd]
    if ← isNext [.name] then
      skip
      let name ← valueBefore v count true true ends
      let d ← valueOfName v count true ends
      return (name, d) :: (← entries v count)
    else if (← isNext [.value]) && v == .v12 then
      let d ← valueOfName v count true ends
      return (nothing, d) :: (← entries v count)
    else if ← isNext [.blockEnd] then
      skip
      return []
    else failure

/-- The items of a list in brackets up to its end. An entry in it is a table of its own. -/
def flowItems (v : Version) : (count : Nat) → (isFirst : Bool) → Composer (List Datum)
  | 0, _ => failure
  | count + 1, isFirst => do
    if ← isNext [.closeList] then
      skip
      return []
    else
      separator isFirst
      if ← isNext [.closeList] then
        skip
        return []
      else if ← isNext [.name] then
        skip
        let ends : List Token := [.value, .comma, .closeList]
        let isEmpty ← isNext ends
        let name ← valueBefore v count false false ends
        if isEmpty then skip
        let d ← valueOfName v count false [.comma, .closeList]
        return .mapping [(name, d)] :: (← flowItems v count false)
      else
        let first ← value v count false false
        return first :: (← flowItems v count false)

/-- The entries of a table in braces up to its end. A name may stand without a value, and in YAML
1.2 a value without a name. -/
def flowEntries (v : Version) : (count : Nat) → (isFirst : Bool) → Composer (List (Datum × Datum))
  | 0, _ => failure
  | count + 1, isFirst => do
    if ← isNext [.closeTable] then
      skip
      return []
    else
      separator isFirst
      let ends : List Token := [.value, .comma, .closeTable]
      if ← isNext [.closeTable] then
        skip
        return []
      else if ← isNext [.name] then
        skip
        let name ← valueBefore v count false false ends
        let d ← valueOfName v count false [.comma, .closeTable]
        return (name, d) :: (← flowEntries v count false)
      else if (← isNext [.value]) && v == .v12 then
        let d ← valueOfName v count false [.comma, .closeTable]
        return (nothing, d) :: (← flowEntries v count false)
      else
        let name ← value v count false false
        return (name, nothing) :: (← flowEntries v count false)

end

def document (v : Version) (count : Nat) : Composer Datum := do
  match (← get).tokens with
  | [] => return .mapping []
  | .directive :: _ | .documentStart :: _ =>
    modify fun s => { s with tokens := s.tokens.dropWhile (· == .directive) }
    if ← isNext [.documentStart] then skip else failure
    if (← peek).isNone then return nothing
    else valueBefore v count true false [.directive, .documentStart, .documentEnd]
  | _ => value v count true false

end Composer

/-- The data of a text in a version of YAML, if it holds at most one document. -/
def parseAs? (v : Version) (text : String) : Option Datum := do
  let tokens ← Token.ofText? v text
  let tokens := if v == .v12 then tokens.dropWhile (· == .documentEnd) else tokens
  let (d, rest) ← (Composer.document v (4 * tokens.length + 4)).run ⟨tokens, []⟩
  if rest.tokens.all (· == .documentEnd) then return d else none

end CaseUnion.Yaml
