/-!
# Places in a YAML text

A cursor is what is left of a text, with the line and column where it begins. Two versions of YAML
are read. They differ in what ends a line, and in some rules of the words and collections.
-/

namespace CaseUnion.Yaml

/-- Documents are written in YAML 1.1 and configurations in YAML 1.2. -/
inductive Version where
  | v11 | v12
  deriving DecidableEq, Repr

def isSpace (c : Char) : Bool := c == ' ' || c == '\t'

def Version.isBreak (v : Version) (c : Char) : Bool :=
  c == '\n' || c == '\r' ||
    (v == .v11 && (c == '\u0085' || c == '\u2028' || c == '\u2029'))

/-- What the end of a line is read as. -/
def breakText (c : Char) : Char := if c == '\u2028' || c == '\u2029' then c else '\n'

def isFlowMark (c : Char) : Bool := ",[]\x7b\x7d".toList.contains c

def isWordChar (c : Char) : Bool := c.isAlphanum || c == '_' || c == '-'

/-- Whether the text ends, or begins with a blank or the end of a line. -/
def atGap (v : Version) : List Char → Bool
  | [] => true
  | c :: _ => isSpace c || v.isBreak c

def atLineEnd (v : Version) : List Char → Bool
  | [] => true
  | c :: _ => v.isBreak c

structure Cursor where
  rest : List Char
  index : Nat := 0
  line : Nat := 0
  column : Nat := 0
  /-- Whether only blanks stand in front on the line. -/
  isLeading : Bool := true

namespace Cursor

def advance (c : Cursor) (count : Nat) : Cursor :=
  { c with
    rest := c.rest.drop count
    index := c.index + count
    column := c.column + count
    isLeading := false }

def skipBlank (c : Cursor) : Cursor := { c.advance 1 with isLeading := c.isLeading }

def skipBreak (c : Cursor) : Cursor :=
  let size := if ['\r', '\n'].isPrefixOf c.rest then 2 else 1
  { rest := c.rest.drop size, index := c.index + size, line := c.line + 1 }

def skipLine (v : Version) (c : Cursor) : Cursor :=
  c.advance (c.rest.takeWhile fun char => !v.isBreak char).length

def skipBlanks (c : Cursor) : Cursor :=
  let size := (c.rest.takeWhile isSpace).length
  { c.advance size with isLeading := c.isLeading }

def head? (c : Cursor) : Option Char := c.rest.head?

def atGap (v : Version) (c : Cursor) : Bool := Yaml.atGap v c.rest

def atLineEnd (v : Version) (c : Cursor) : Bool := Yaml.atLineEnd v c.rest

/-- Whether a line begins with three marks of a kind, apart from what follows. -/
def atMark (v : Version) (mark : Char) (c : Cursor) : Bool :=
  c.column == 0 && [mark, mark, mark].isPrefixOf c.rest && Yaml.atGap v (c.rest.drop 3)

def atDocumentMark (v : Version) (c : Cursor) : Bool := c.atMark v '-' || c.atMark v '.'

/-- What follows blanks and a comment. In YAML 1.2 a comment stands apart from what is in front. -/
def skipComment? (v : Version) (c : Cursor) : Option Cursor :=
  let behind := c.skipBlanks
  if behind.head? != some '#' then some behind
  else if v == .v12 && behind.column == c.column then none
  else some (behind.skipLine v)

end Cursor
end CaseUnion.Yaml
