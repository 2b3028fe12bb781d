import CaseUnion.Text.CodeRanges

/-!
# White space

The property `White_Space` of the Unicode standard.
-/

namespace CaseUnion.Text

set_option maxRecDepth 8000 in
def blankRanges : CodeRanges := [
  (0x9, 0xD), (0x20, 0x20), (0x85, 0x85), (0xA0, 0xA0), (0x1680, 0x1680), (0x2000, 0x200A),
  (0x2028, 0x2029), (0x202F, 0x202F), (0x205F, 0x205F), (0x3000, 0x3000)]

def isBlank (c : Char) : Bool := blankRanges.contains c

/-- A text without the white space at its end. -/
def trimEnd (cs : List Char) : List Char := (cs.reverse.dropWhile isBlank).reverse

end CaseUnion.Text
