import CaseUnion.Datum.Yaml.Scalar

/-!
# YAML tokens

A YAML text is taken apart into tokens. Indentation is turned into tokens that open and close block
collections. Whether something is the name of an entry shows only at the colon behind it; the token
that says so is then put in front of what has been scanned since (`Scanner.insert`).
-/

namespace CaseUnion.Yaml

inductive Tag where
  /-- That it is a text. -/
  | text
  /-- That it has one of the other types of the core. -/
  | core
  /-- Something that only the application knows. -/
  | custom
  deriving DecidableEq, Repr

inductive Token where
  | directive | documentStart | documentEnd
  /-- The beginning of a block of items or of entries. -/
  | blockList | blockTable
  | blockEnd
  | openList | closeList | openTable | closeTable
  | comma
  /-- The mark in front of an item of a block. -/
  | item
  /-- In front of a name. -/
  | name
  /-- In front of what belongs to a name. -/
  | value
  | anchor (name : String)
  | alias (name : String)
  | tag (tag : Tag)
  | scalar (isPlain : Bool) (text : String)
  deriving DecidableEq, Repr

structure PossibleName where
  /-- The number of tokens in front. -/
  position : Nat
  index : Nat
  line : Nat
  column : Nat
  /-- Whether nothing but a name can stand there. -/
  isRequired : Bool

/-- The indentation of a block, or one more column that the value of an entry needs. -/
structure Indentation where
  column : Int
  isBlock : Bool := true

structure OpenFlow where
  isList : Bool
  /-- The possible name around it. -/
  outer : Option PossibleName

structure Scanner where
  version : Version
  cursor : Cursor
  /-- The tokens so far, last first. -/
  tokens : List Token := []
  /-- The number of tokens so far. -/
  size : Nat := 0
  /-- The blocks that are open, innermost first. -/
  indentations : List Indentation := []
  flows : List OpenFlow := []
  possibleName : Option PossibleName := none
  /-- Whether a name may begin here. -/
  allowsName : Bool := true
  /-- Where a colon needs no blank behind it. -/
  adjacentIndex : Option Nat := none

namespace Scanner

def indent (s : Scanner) : Int := (s.indentations.head?.map (·.column)).getD (-1)

def isFlow (s : Scanner) : Bool := !s.flows.isEmpty

def isModern (s : Scanner) : Bool := s.version == .v12

def insert (s : Scanner) (position : Nat) (token : Token) : Scanner :=
  let later := s.size - position
  { s with
    tokens := s.tokens.take later ++ token :: s.tokens.drop later
    size := s.size + 1 }

def push (s : Scanner) (token : Token) : Scanner := s.insert s.size token

def advance (s : Scanner) (count : Nat) : Scanner := { s with cursor := s.cursor.advance count }

/-- Opens a block at a column that is further to the right than the block around it. -/
def openBlock (s : Scanner) (column position : Nat) (token : Token) : Scanner :=
  if s.isFlow then s
  else
    let known :=
      match s.indentations with
      | ⟨old, false⟩ :: outer => if old ≤ (column : Int) then outer else s.indentations
      | known => known
    let s := { s with indentations := known }
    if s.indent < (column : Int) then
      { s.insert position token with indentations := ⟨column, true⟩ :: known }
    else s

def openBlockHere (s : Scanner) (token : Token) : Scanner :=
  s.openBlock s.cursor.column s.size token

def closeBlocks (column : Int) (s : Scanner) : Scanner :=
  if s.isFlow then s
  else
    let closed := s.indentations.takeWhile (column < ·.column)
    let ended := (closed.filter (·.isBlock)).foldl (fun s _ => s.push .blockEnd) s
    { ended with indentations := s.indentations.drop closed.length }

/-- In YAML 1.2 the value of an entry, and a collection in brackets, are indented by one more column
than the block around them. -/
def indentOne (s : Scanner) : Scanner :=
  match s.indentations with
  | ⟨column, true⟩ :: _ =>
    if s.isModern && !s.isFlow then
      { s with indentations := ⟨column + 1, false⟩ :: s.indentations }
    else s
  | _ => s

def dropSoft (s : Scanner) : Scanner :=
  { s with indentations := s.indentations.dropWhile (!·.isBlock) }

/-- Whether a possible name lies too far back: names stand on one line and are not long. -/
def isStale (s : Scanner) (n : PossibleName) : Bool :=
  n.line < s.cursor.line || n.index + 1024 < s.cursor.index

/-- A possible name, unless it is stale. A required name must not be. -/
def refresh? (s : Scanner) : Option PossibleName → Option (Option PossibleName)
  | some n => if s.isStale n then (if n.isRequired then none else some none) else some (some n)
  | none => some none

/-- Forgets possible names that are stale. In YAML 1.2 those inside of brackets and around them stay
as long as the brackets are open. -/
def refreshNames? (s : Scanner) : Option Scanner := do
  if s.isModern && s.isFlow then return s
  else
    let flows ← s.flows.mapM fun f => return { f with outer := ← s.refresh? f.outer }
    return { s with possibleName := ← s.refresh? s.possibleName, flows := flows }

def dropName? (s : Scanner) : Option Scanner :=
  if (s.possibleName.map (·.isRequired)).getD false then none
  else some { s with possibleName := none }

def saveName? (s : Scanner) : Option Scanner := do
  if !s.allowsName then return s
  else
    let s ← if s.isModern then some s else s.dropName?
    let isBlock := (s.indentations.head?.map (·.isBlock)).getD false
    let isRequired := !s.isFlow && s.indent == s.cursor.column && (isBlock || !s.isModern)
    let c := s.cursor
    return { s with
      possibleName := some ⟨s.size, c.index, c.line, c.column, isRequired⟩ }

/-- Goes over blanks behind a mark; in YAML 1.2 a comment there stands apart from the mark. -/
def skipComment? (s : Scanner) : Option Scanner :=
  if s.isModern then (s.cursor.skipComment? .v12).map fun c => { s with cursor := c } else some s

/-- Goes to the next token over blanks, comments and ends of lines. Tabs do not indent. -/
def skipGap? : (count : Nat) → Scanner → Option Scanner
  | 0, _ => none
  | count + 1, s =>
    let c := s.cursor
    let go (c : Cursor) : Option Scanner := skipGap? count { s with cursor := c }
    match c.head? with
    | some ' ' => go c.skipBlank
    | some '\t' =>
      if s.isModern then
        if !s.indentations.isEmpty && c.isLeading && c.column < s.indent then
          (c.skipComment? .v12).bind fun c => if c.atLineEnd .v12 then go c else none
        else go c.skipBlank
      else if s.isFlow || !s.allowsName then go c.skipBlank
      else some s
    | some '#' => go (c.skipLine s.version)
    | some '\ufeff' => if !s.isModern && c.column = 0 then go (c.advance 1) else some s
    | some char =>
      if s.version.isBreak char then
        skipGap? count { s with cursor := c.skipBreak, allowsName := s.allowsName || !s.isFlow }
      else some s
    | none => some s

/-- The mark of a document, or the end of the text, ends all blocks. -/
def endBlocks? (s : Scanner) : Option Scanner := do
  let s ← (s.closeBlocks (-1)).dropName?
  return { s with allowsName := false }

def scanDocumentMark? (s : Scanner) (token : Token) : Option Scanner := do
  let s := ((← s.endBlocks?).push token).advance 3
  if s.isModern && token == .documentEnd then
    let s ← s.skipComment?
    if s.cursor.atLineEnd .v12 then return s else none
  else return s

/-- A line for the reader of the text. YAML 1.1 knows only the one that names a version. -/
def scanDirective? (s : Scanner) : Option Scanner := do
  let s := (← s.endBlocks?).push .directive
  let words := s.cursor.rest.takeWhile fun c => !s.version.isBreak c
  if s.isModern || "%YAML 1.".toList.isPrefixOf words then
    return { s with cursor := s.cursor.skipLine s.version }
  else none

def openFlow? (s : Scanner) (isList : Bool) : Option Scanner := do
  let s := (← s.saveName?).indentOne
  let s := { s with
    flows := ⟨isList, s.possibleName⟩ :: s.flows
    possibleName := none
    allowsName := true }
  let s := (s.push (if isList then .openList else .openTable)).advance 1
  if s.isModern && 255 < s.flows.length then none else s.skipComment?

def closeFlow? (s : Scanner) (token : Token) : Option Scanner := do
  let s ← s.dropName?
  let s :=
    match s.flows with
    | f :: outer => { s with flows := outer, possibleName := f.outer }
    | [] => s
  let s ← ({ s.push token with allowsName := false }.advance 1).skipComment?
  return { s with adjacentIndex := if s.isFlow then some s.cursor.index else s.adjacentIndex }

def scanComma? (s : Scanner) : Option Scanner := do
  let s ← s.dropName?
  ({ s.push .comma with allowsName := true }.advance 1).skipComment?

/-- The mark of an item. It is refused inside of brackets; YAML 1.1 leaves that to the grammar. -/
def scanItem? (s : Scanner) : Option Scanner := do
  if s.isFlow && s.isModern then none
  else if !s.isFlow && !s.allowsName then none
  else
    let s := (s.openBlockHere .blockList).advance 1
    let blanks := s.cursor.rest.takeWhile isSpace
    let s ← s.skipComment?
    let isItem := s.cursor.head? == some '-' && atGap s.version (s.cursor.rest.drop 1)
    if s.isModern && blanks.contains '\t' && isItem then none
    else
      let isSoft := match s.cursor.head? with
        | some c => s.version.isBreak c || isFlowMark c
        | none => false
      let s ← (if isSoft then s.indentOne else s).dropName?
      return { s.push .item with allowsName := true }

def scanNameMark? (s : Scanner) : Option Scanner := do
  if !s.isFlow && !s.allowsName then none
  else
    let s ← (s.openBlockHere .blockTable).dropName?
    let s := { s.push .name with allowsName := !s.isFlow }.advance 1
    let blanks := s.cursor.rest.takeWhile isSpace
    if s.isModern && (blanks.contains '\t' || s.cursor.rest.isEmpty) then none else return s

/-- A colon. What was scanned since the possible name is a name then. -/
def scanValueMark? (s : Scanner) : Option Scanner := do
  let mark := s.cursor
  let blanks := (mark.rest.drop 1).takeWhile isSpace
  let next := (mark.rest.drop 1).dropWhile isSpace
  let isWord := (next.head?.map isWordChar).getD false
  if s.isModern && blanks.head? == some '\t' && !blanks.contains ' ' && isWord then none
  else
    match s.possibleName with
    | some n =>
      let isListEntry := (s.flows.head?.map (·.isList)).getD false
      if s.isModern && isListEntry && n.line < mark.line then none
      else
        let s := (s.insert n.position .name).openBlock n.column n.position .blockTable
        let s := { s.indentOne with possibleName := none, allowsName := false }
        return (s.push .value).advance 1
    | none =>
      if !s.isFlow && !s.allowsName then none
      else
        let s := (s.openBlockHere .blockTable).indentOne
        return ({ s with allowsName := !s.isFlow }.push .value).advance 1

def scanReference? (s : Scanner) (token : String → Token) : Option Scanner := do
  let s ← s.saveName?
  let belongs (c : Char) : Bool :=
    if s.isModern then !isSpace c && !s.version.isBreak c && !isFlowMark c else isWordChar c
  let name := (s.cursor.rest.drop 1).takeWhile belongs
  let s := { s.push (token (String.ofList name)) with allowsName := false }
  let s := s.advance (name.length + 1)
  let isEnd := s.cursor.atGap s.version ||
    (s.cursor.head?.map fun c => "?:,]\x7d%@\x60".toList.contains c).getD false
  if name.isEmpty || !(s.isModern || isEnd) then none else return s

def tagOf (word : String) : Tag :=
  if ["!", "!!str", "!<tag:yaml.org,2002:str>"].contains word then .text
  else if "!!".toList.isPrefixOf word.toList || "!<tag:yaml.org,2002:".toList.isPrefixOf word.toList
    then .core
  else .custom

def scanTag? (s : Scanner) : Option Scanner := do
  let s ← s.saveName?
  let word := s.cursor.rest.takeWhile fun c => !atGap s.version [c] && !(s.isFlow && isFlowMark c)
  return { s.push (.tag (tagOf (String.ofList word))) with allowsName := false }.advance word.length

def scanBlockScalar? (count : Nat) (s : Scanner) (isLiteral : Bool) : Option Scanner := do
  let s ← if s.isModern then s.saveName? else s.dropName?
  let s := if s.isModern then s.dropSoft else s
  let (text, c) ← scanBlock s.version isLiteral s.indent count (s.cursor.advance 1)
  return { s.push (.scalar false (String.ofList text)) with cursor := c, allowsName := true }

/-- What may follow a quoted scalar on its line in YAML 1.2. -/
def mayFollowQuoted (s : Scanner) (line : Nat) (c : Cursor) : Bool :=
  c.atLineEnd s.version ||
    match c.head? with
    | some ':' => s.isFlow || c.line == line
    | some c => s.isFlow && [',', '\x7d', ']'].contains c
    | none => true

def scanQuotedScalar? (count : Nat) (s : Scanner) (quote : Char) : Option Scanner := do
  let s ← s.saveName?
  let line := s.cursor.line
  let (text, c) ← scanQuoted s.version quote s.indent count (s.cursor.advance 1)
  let s := { s.push (.scalar false (String.ofList text)) with cursor := c, allowsName := false }
  if s.isModern then
    let s ← s.skipComment?
    if s.mayFollowQuoted line s.cursor then
      let s ← skipGap? count s
      return { s with adjacentIndex := some s.cursor.index }
    else none
  else return s

def scanPlainScalar? (count : Nat) (s : Scanner) : Option Scanner := do
  let s ← s.saveName?
  let s := { (if s.isModern then s.dropSoft else s) with allowsName := false }
  let indent := s.indent + 1
  if s.isModern && s.isFlow && s.cursor.column < indent then none
  else
    let (text, crossesLines, c) ← scanPlain s.version s.isFlow indent count {} s.cursor
    if text.isEmpty then none
    else
      return { s.push (.scalar true (String.ofList text)) with
        cursor := c
        allowsName := crossesLines }

/-- Whether a plain scalar can begin here in YAML 1.1. The marks of other things cannot begin one,
unless for three of them that are also used within words. -/
def canBeginPlain (isFlow : Bool) : List Char → Bool
  | [] => false
  | '-' :: rest => !((rest.head?.map isSpace).getD false)
  | c :: rest =>
    if c == '?' || c == ':' then !isFlow && !atGap .v11 rest
    else !atGap .v11 (c :: rest) && !(",[]\x7b\x7d#&*!|>'\"%@\x60".toList.contains c)

/-- Whether a mark stands here and not the first character of a word. Inside of brackets YAML 1.1
reads it as a mark in any case; YAML 1.2 does so for a colon in front of another mark or behind a
quoted text or a closed collection. -/
def isMarkHere (s : Scanner) (mark : Char) : Bool :=
  let next := s.cursor.rest.drop 1
  atGap s.version next ||
    match s.version with
    | .v11 => s.isFlow && mark != '-'
    | .v12 =>
      s.isFlow && mark == ':' &&
        ((next.head?.map isFlowMark).getD false || s.adjacentIndex == some s.cursor.index)

/-- In YAML 1.2 a colon in front of an opening bracket needs a blank behind it, unless it may be
adjacent. -/
def isCrowded (s : Scanner) : Bool :=
  s.isModern && s.isFlow && s.adjacentIndex != some s.cursor.index &&
    ((s.cursor.rest[1]?).map fun c => c == '[' || c == '\x7b').getD false

def scanToken? (count : Nat) (s : Scanner) (c : Char) : Option Scanner :=
  match c with
  | '[' => s.openFlow? true
  | '\x7b' => s.openFlow? false
  | ']' => s.closeFlow? .closeList
  | '\x7d' => s.closeFlow? .closeTable
  | ',' => s.scanComma?
  | '*' => s.scanReference? .alias
  | '&' => s.scanReference? .anchor
  | '!' => s.scanTag?
  | '\'' | '"' => s.scanQuotedScalar? count c
  | '%' | '@' | '\x60' => none
  | c =>
    if c == '-' && s.isMarkHere '-' then s.scanItem?
    else if c == '?' && s.isMarkHere '?' then s.scanNameMark?
    else if c == ':' && s.isMarkHere ':' then if s.isCrowded then none else s.scanValueMark?
    else if (c == '|' || c == '>') && !s.isFlow then s.scanBlockScalar? count (c == '|')
    else if s.isModern || canBeginPlain s.isFlow s.cursor.rest then s.scanPlainScalar? count
    else none

def step? (count : Nat) (s : Scanner) : Option Scanner := do
  let s ← (← skipGap? count s).refreshNames?
  let s := s.closeBlocks s.cursor.column
  match s.cursor.head? with
  | none => return s
  | some c =>
    if s.cursor.column == 0 && c == '%' then s.scanDirective?
    else if s.cursor.atMark s.version '-' then s.scanDocumentMark? .documentStart
    else if s.cursor.atMark s.version '.' then s.scanDocumentMark? .documentEnd
    else if s.isModern && s.cursor.column < s.indent then none
    else s.scanToken? count c

/-- Scans up to the end of the text. Every step takes a character of it. -/
def run? (limit : Nat) : (count : Nat) → Scanner → Option Scanner
  | 0, _ => none
  | count + 1, s => do
    let next ← s.step? limit
    if next.cursor.rest.isEmpty then next.endBlocks? else run? limit count next

end Scanner

def isAllowed (c : Char) : Bool :=
  let n := c.toNat
  n = 0x09 || n = 0x0A || n = 0x0D || (0x20 ≤ n && n ≤ 0x7E) || n = 0x85 ||
    (0xA0 ≤ n && n ≤ 0xFFFD) || 0x10000 ≤ n

/-- The characters that are read: YAML 1.2 ends at the first NUL. -/
def charsOf? (v : Version) (text : String) : Option (List Char) :=
  match v with
  | .v11 => if text.toList.all isAllowed then some text.toList else none
  | .v12 => some (text.toList.takeWhile (· != '\x00'))

def Token.ofText? (v : Version) (text : String) : Option (List Token) := do
  let cs ← charsOf? v text
  let limit := 2 * cs.length + 2
  let s ← Scanner.run? limit limit { version := v, cursor := { rest := cs } }
  return s.tokens.reverse

end CaseUnion.Yaml
