import CaseUnion.Datum.Json
import CaseUnion.Datum.Yaml.Cursor

/-!
# YAML scalars

A scalar is a plain word, or it stands in single or double quotes, or it is a block of lines behind
a mark. Inside of words and quotes a single line end is read as a blank, and of several the first is
left out. All scanners return the characters of a scalar and the place behind it; `count` bounds the
number of their steps.
-/

namespace CaseUnion.Yaml

structure Gap where
  /-- The blanks, if no line ends. -/
  blanks : List Char := []
  breaks : List Char := []
  /-- Whether a line ends, in a way that is not read as a blank. -/
  isJoined : Bool := false

namespace Gap

def crossesLines (g : Gap) : Bool := g.isJoined || !g.breaks.isEmpty

def text (g : Gap) : List Char :=
  if g.isJoined then g.breaks
  else
    match g.breaks with
    | [] => g.blanks
    | ['\n'] => [' ']
    | '\n' :: others => others
    | breaks => breaks

/-- The gap with one more character. Blanks do not count once a line has ended. -/
def push (v : Version) (g : Gap) (c : Char) : Gap :=
  if v.isBreak c then { g with blanks := [], breaks := g.breaks ++ [breakText c] }
  else if g.crossesLines then g
  else { g with blanks := g.blanks ++ [c] }

end Gap

/-- The gap up to the next word. At the beginning of a line, in front of the column `indent`, tabs
are refused, unless `allowsTabLines` holds and nothing else is on the line. -/
def scanGap (v : Version) (indent : Int) (allowsTabLines : Bool) :
    (count : Nat) → Gap → Cursor → Option (Gap × Cursor)
  | 0, _, _ => none
  | count + 1, g, c =>
    match c.head? with
    | none => some (g, c)
    | some char =>
      if v.isBreak char then scanGap v indent allowsTabLines count (g.push v char) c.skipBreak
      else if char == '\t' && g.crossesLines && c.column < indent then
        let behind := c.skipBlanks
        if allowsTabLines && behind.atLineEnd v then
          scanGap v indent allowsTabLines count g behind
        else none
      else if isSpace char then scanGap v indent allowsTabLines count (g.push v char) c.skipBlank
      else some (g, c)

/-- The characters of a plain word up to a gap or the end of the word. A colon ends it in front of a
gap, and the marks of collections do inside of one. -/
def plainRun? (v : Version) (isFlow : Bool) : List Char → Option (List Char)
  | [] => some []
  | c :: rest =>
    let isBeforeMark := isFlow && (rest.head?.map isFlowMark).getD false
    if atGap v (c :: rest) || (isFlow && isFlowMark c) then some []
    else if c == ':' && atGap v rest then some []
    else if c == ':' && v == .v12 && isBeforeMark then some []
    else if c == ':' && v == .v11 && (isBeforeMark || (isFlow && rest.head? == some '?')) then none
    else (plainRun? v isFlow rest).map (c :: ·)

/-- What is read of a plain scalar: its characters, whether lines ended behind the last of them, and
the place behind. -/
abbrev PlainRead := List Char × Bool × Cursor

/-- A plain scalar behind a gap. It goes on over the ends of lines as long as they are indented. -/
def scanPlain (v : Version) (isFlow : Bool) (indent : Int) :
    (count : Nat) → Gap → Cursor → Option PlainRead
  | 0, _, _ => none
  | count + 1, g, c =>
    if c.atDocumentMark v || c.head? == some '#' then some ([], g.crossesLines, c)
    else if v == .v12 && isFlow && c.head? == some '-' &&
        ((c.rest[1]?).map isFlowMark).getD false then none
    else
      match plainRun? v isFlow c.rest with
      | none => none
      | some [] => some ([], g.crossesLines, c)
      | some run => do
        let c := c.advance run.length
        let (next, c) ← scanGap v indent (v == .v12) count {} c
        if !isFlow && next.crossesLines && c.column < indent then
          return (g.text ++ run, true, c)
        else
          let (more, crossesLines, c) ← scanPlain v isFlow indent count next c
          return (g.text ++ run ++ more, crossesLines, c)

def unescape? : Char → Option Char
  | '0' => some '\x00'
  | 'a' => some '\x07'
  | 't' | '\t' => some '\t'
  | 'v' => some '\x0b'
  | 'e' => some '\x1b'
  | ' ' => some ' '
  | 'N' => some '\u0085'
  | '_' => some '\u00a0'
  | 'L' => some '\u2028'
  | 'P' => some '\u2029'
  | c => Json.unescape? c

def charOfCode? (code : Nat) : Option Char :=
  if code.isValidChar then some (Char.ofNat code) else none

def escaped? : List Char → Option (Char × Nat)
  | 'x' :: a :: b :: _ => do return (← charOfCode? (← Json.hex4? '0' '0' a b), 3)
  | 'u' :: a :: b :: c :: d :: _ => do return (← charOfCode? (← Json.hex4? a b c d), 5)
  | 'U' :: a :: b :: c :: d :: e :: f :: g :: h :: _ => do
    return (← charOfCode? ((← Json.hex4? a b c d) * 0x10000 + (← Json.hex4? e f g h)), 9)
  | c :: _ => (unescape? c).map (·, 1)
  | [] => none

inductive QuotedStep where
  | close
  /-- A character, and the number of characters it takes. -/
  | char (c : Char) (size : Nat)
  | gap
  /-- A backslash at the end of a line. -/
  | join

def quotedStep? (v : Version) (quote : Char) : List Char → Option QuotedStep
  | [] => none
  | c :: rest =>
    if c == quote then
      if quote == '\'' && rest.head? == some '\'' then some (.char '\'' 2) else some .close
    else if c == '\\' && quote == '"' then
      if !rest.isEmpty && atLineEnd v rest then some .join
      else (escaped? rest).map fun (char, size) => .char char (size + 1)
    else if atGap v (c :: rest) then some .gap
    else some (.char c 1)

/-- A quoted scalar behind its opening quote. In YAML 1.2 all of its lines are indented. -/
def scanQuoted (v : Version) (quote : Char) (indent : Int) :
    (count : Nat) → Cursor → Option (List Char × Cursor)
  | 0, _ => none
  | count + 1, c =>
    if c.atDocumentMark v || (v == .v12 && c.column < indent) then none
    else do
      let limit := if v == .v12 then indent else -1
      match ← quotedStep? v quote c.rest with
      | .close => return ([], c.advance 1)
      | .char char size =>
        let (more, behind) ← scanQuoted v quote indent count (c.advance size)
        return (char :: more, behind)
      | .gap =>
        let (g, c) ← scanGap v limit false count {} c
        let (more, behind) ← scanQuoted v quote indent count c
        return (g.text ++ more, behind)
      | .join =>
        let (g, c) ← scanGap v limit false count ⟨[], [], true⟩ (c.advance 1).skipBreak
        let (more, behind) ← scanQuoted v quote indent count c
        return (g.text ++ more, behind)

/-- Which line ends at the end of a block belong to its text. -/
inductive Chomping where
  | strip | clip | keep
  deriving DecidableEq, Repr

structure BlockHeader where
  chomping : Chomping := .clip
  increment : Option Nat := none

def chompingOf? : Char → Option Chomping
  | '+' => some .keep
  | '-' => some .strip
  | _ => none

def blockHeader? (cs : List Char) : Option (BlockHeader × Nat) :=
  let increment? (c : Char) : Option Nat :=
    if c.isDigit && c != '0' then some (c.toNat - 48) else none
  match cs with
  | a :: b :: _ =>
    match chompingOf? a, chompingOf? b with
    | some chomping, _ =>
      if b.isDigit then (increment? b).map fun n => (⟨chomping, some n⟩, 2)
      else some (⟨chomping, none⟩, 1)
    | none, second =>
      if a.isDigit then
        (increment? a).map fun n =>
          match second with
          | some chomping => (⟨chomping, some n⟩, 2)
          | none => (⟨.clip, some n⟩, 1)
      else some ({}, 0)
  | [a] =>
    match chompingOf? a with
    | some chomping => some (⟨chomping, none⟩, 1)
    | none =>
      if a.isDigit then (increment? a).map fun n => (⟨.clip, some n⟩, 1) else some ({}, 0)
  | [] => some ({}, 0)

/-- Goes over blank lines and the indentation of the next line, at most to the column `indent`. The
result has the ends of the blank lines, the widest indentation and the place behind. -/
def scanIndentation (v : Version) (indent : Option Nat) :
    (count : Nat) → (widest : Nat) → Cursor → Option (List Char × Nat × Cursor)
  | 0, _, _ => none
  | count + 1, widest, c =>
    let isOpen := (indent.map fun n => decide (c.column < n)).getD true
    match c.head? with
    | none => some ([], max widest c.column, c)
    | some char =>
      if char == ' ' && isOpen then scanIndentation v indent count widest c.skipBlank
      else if char == '\t' && isOpen && v == .v11 then none
      else if v.isBreak char then do
        let (breaks, widest, behind) ←
          scanIndentation v indent count (max widest c.column) c.skipBreak
        return (breakText char :: breaks, widest, behind)
      else some ([], max widest c.column, c)

structure BlockLines where
  text : List Char := []
  /-- The end of the last line. -/
  lineEnd : List Char := []
  /-- The ends of blank lines behind it. -/
  blankLines : List Char := []
  /-- Whether the last line begins with a blank. -/
  isIndented : Bool := false

/-- The text in front of the next line. In a folded block a line end between lines that do not begin
with blanks is read as a blank, or left out if blank lines follow. -/
def BlockLines.before (b : BlockLines) (isLiteral nextIsIndented : Bool) : List Char :=
  if !isLiteral && b.lineEnd == ['\n'] && !b.isIndented && !nextIsIndented then
    b.text ++ (if b.blankLines.isEmpty then [' '] else b.blankLines)
  else b.text ++ b.lineEnd ++ b.blankLines

def scanBlockLines (v : Version) (isLiteral : Bool) (indent : Nat) :
    (count : Nat) → BlockLines → Cursor → Option (BlockLines × Cursor)
  | 0, _, _ => none
  | count + 1, b, c =>
    if c.column != indent || c.rest.isEmpty || (v == .v12 && c.atMark v '.') then some (b, c)
    else
      let isIndented := (c.head?.map isSpace).getD false
      let behind := c.skipLine v
      let text := b.before isLiteral isIndented ++ c.rest.take (behind.column - c.column)
      match behind.head? with
      | none => some (⟨text, [], [], isIndented⟩, behind)
      | some char => do
        let (blankLines, _, next) ← scanIndentation v (some indent) count 0 behind.skipBreak
        scanBlockLines v isLiteral indent count ⟨text, [breakText char], blankLines, isIndented⟩
          next

def BlockLines.chomped (b : BlockLines) : Chomping → List Char
  | .strip => b.text
  | .clip => b.text ++ b.lineEnd
  | .keep => b.text ++ b.lineEnd ++ b.blankLines

/-- The text of a block in YAML 1.2 that ends with the text around it. A last line without an end
gets one. -/
def closeBlock (indent : Nat) (b : BlockLines) (c : Cursor) : BlockLines :=
  if c.rest.isEmpty && max indent 1 ≤ c.column then
    { b with lineEnd := b.lineEnd ++ ['\n'] }
  else b

def scanBlock (v : Version) (isLiteral : Bool) (outer : Int) (count : Nat) (c : Cursor) :
    Option (List Char × Cursor) := do
  let (header, size) ← blockHeader? c.rest
  let c ← (if size = 0 then c else c.advance size).skipComment? v
  if !c.atLineEnd v then none
  else
    let start := if c.rest.isEmpty then c else c.skipBreak
    if v == .v12 && start.head? == some '\t' then none
    else
      let given := header.increment.map fun n => outer.toNat + n
      let (breaks, widest, first) ← scanIndentation v given count 0 start
      let least := (outer + 1).toNat
      let indent := given.getD (max widest (if v == .v11 then max least 1 else least))
      if v == .v11 then
        let (lines, behind) ← scanBlockLines v isLiteral indent count ⟨[], [], breaks, false⟩ first
        return (lines.chomped header.chomping, behind)
      else if first.rest.isEmpty then
        let lineEnd := if first.line = c.line then [] else ['\n']
        let kept := if breaks.isEmpty then lineEnd else breaks
        match header.chomping with
        | .strip => return ([], first)
        | .clip => return (lineEnd, first)
        | .keep => return (kept, first)
      else if first.column < indent && outer < first.column then none
      else
        let (lines, behind) ← scanBlockLines v isLiteral indent count ⟨[], [], breaks, false⟩ first
        return ((closeBlock indent lines behind).chomped header.chomping, behind)

end CaseUnion.Yaml
