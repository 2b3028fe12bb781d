/-!
# Glob patterns

A pattern is a list of tokens. A question mark stands for any character, a star for any characters,
brackets for a character of a set, and two stars that fill a path component for any whole
components. What a token can take is a set of rests of the text, so that `Token.matches` is
a recursion on the tokens alone.
-/

namespace CaseUnion.Glob

/-- A character, or the characters between two, in brackets. -/
inductive Item where
  | one (c : Char)
  | range (first last : Char)
  deriving DecidableEq, Repr

inductive Token where
  | char (c : Char)
  | anyChar
  | anyText
  /-- Any whole components. -/
  | anyPath
  | oneOf (items : List Item)
  | noneOf (items : List Item)
  deriving DecidableEq, Repr

inductive Offence where
  | tooManyStars
  | starsInsideComponent
  | invalidRange
  deriving DecidableEq, Repr

/-- What is wrong with a pattern, and at which character. -/
structure PatternError where
  position : Nat
  offence : Offence
  deriving DecidableEq, Repr

def Offence.message : Offence → String
  | tooManyStars => "wildcards are either regular \x60*\x60 or recursive \x60**\x60"
  | starsInsideComponent => "recursive wildcards must form a single path component"
  | invalidRange => "invalid range pattern"

def PatternError.message (e : PatternError) : String :=
  s!"Pattern syntax error near position {e.position}: {e.offence.message}"

def items : List Char → List Item
  | first :: '-' :: last :: rest => .range first last :: items rest
  | c :: rest => .one c :: items rest
  | [] => []

/-- The items up to the closing bracket, the number of characters they take with it, and what
follows. The first character is always an item. -/
def scanItems? : List Char → Option (List Item × Nat × List Char)
  | [] => none
  | first :: rest =>
    let inner := rest.takeWhile (· ≠ ']')
    match rest.dropWhile (· ≠ ']') with
    | [] => none
    | _ :: after => some (items (first :: inner), inner.length + 2, after)

/-- A set behind an opening bracket, with the number of its characters and what follows. -/
def scanSet? : List Char → Option (Token × Nat × List Char)
  | '!' :: rest => (scanItems? rest).map fun (set, count, after) => (.noneOf set, count + 1, after)
  | cs => (scanItems? cs).map fun (set, count, after) => (.oneOf set, count, after)

/-- The tokens of at most `count` steps through a text that begins at a position. `isFresh` says
whether a path component begins there. -/
def scanUpTo : Nat → Nat → Bool → List Char → Except PatternError (List Token)
  | 0, _, _, _ => .ok []
  | _, _, _, [] => .ok []
  | count + 1, position, _, '?' :: rest => do
    return .anyChar :: (← scanUpTo count (position + 1) false rest)
  | _, position, _, '*' :: '*' :: '*' :: _ => .error ⟨position + 2, .tooManyStars⟩
  | count + 1, position, isFresh, '*' :: '*' :: rest =>
    if isFresh then
      match rest with
      | [] => .ok [.anyPath]
      | '/' :: rest => do return .anyPath :: (← scanUpTo count (position + 3) true rest)
      | _ => .error ⟨position + 2, .starsInsideComponent⟩
    else .error ⟨position - 1, .starsInsideComponent⟩
  | count + 1, position, _, '*' :: rest => do
    return .anyText :: (← scanUpTo count (position + 1) false rest)
  | count + 1, position, _, '[' :: rest =>
    match scanSet? rest with
    | some (token, width, after) => do
      return token :: (← scanUpTo count (position + 1 + width) false after)
    | none => .error ⟨position, .invalidRange⟩
  | count + 1, position, _, c :: rest => do
    return .char c :: (← scanUpTo count (position + 1) (c = '/') rest)

/-- The tokens of a pattern. Every step takes a character at least. -/
def scan (pattern : List Char) : Except PatternError (List Token) :=
  scanUpTo pattern.length 0 true pattern

def Item.contains (c : Char) : Item → Bool
  | one d => c == d
  | range first last => first ≤ c && c ≤ last

def Token.accepts (c : Char) : Token → Bool
  | char d => c == d
  | anyChar => true
  | oneOf items => items.any (·.contains c)
  | noneOf items => !items.any (·.contains c)
  | anyText | anyPath => false

def rests : List Char → List (List Char)
  | [] => [[]]
  | c :: cs => (c :: cs) :: rests cs

/-- What follows a separator, and the end of the text. -/
def restsBehindSeparators : List Char → List (List Char)
  | [] => [[]]
  | c :: cs => if c = '/' then cs :: restsBehindSeparators cs else restsBehindSeparators cs

def Token.matches : List Token → List Char → Bool
  | [], cs => cs.isEmpty
  | .anyText :: tokens, cs => (rests cs).any (Token.matches tokens)
  | .anyPath :: tokens, cs => (cs :: restsBehindSeparators cs).any (Token.matches tokens)
  | token :: tokens, c :: cs => token.accepts c && Token.matches tokens cs
  | _ :: _, [] => false

def literal? : List Token → Option (List Char)
  | [] => some []
  | .char c :: tokens => (literal? tokens).map (c :: ·)
  | _ :: _ => none

end CaseUnion.Glob
