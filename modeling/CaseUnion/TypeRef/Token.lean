import CaseUnion.Text.Alphabetic
import CaseUnion.Text.Numeric
import CaseUnion.Text.Blank

/-!
# The words and marks of a type reference

`Token.scan` reads a text as a list of tokens: names, and single characters that are not part of a
name. White space separates tokens and is dropped.
-/

namespace CaseUnion

def isNameStart (c : Char) : Bool := c == '_' || c == '@' || Text.isAlphabetic c

def isNamePart (c : Char) : Bool := c == '_' || Text.isAlphabetic c || Text.isNumeric c

inductive Token where
  /-- A name, given by its first character and the others. -/
  | word (first : Char) (rest : List Char)
  | mark (c : Char)
  deriving DecidableEq, Repr

namespace Token

/-- The first character, the one a message points at. -/
def head : Token → Char
  | word first _ => first
  | mark c => c

def scan : List Char → List Token
  | [] => []
  | c :: rest =>
    if Text.isBlank c then scan rest
    else if isNameStart c then
      word c (rest.takeWhile isNamePart) :: scan (rest.dropWhile isNamePart)
    else mark c :: scan rest
termination_by cs => cs.length
decreasing_by
  · simp
  · simpa using Nat.lt_succ_of_le (List.dropWhile_suffix isNamePart).length_le
  · simp

end Token
end CaseUnion
