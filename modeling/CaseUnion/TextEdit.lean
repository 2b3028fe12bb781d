import CaseUnion.Failure
import CaseUnion.Text.Bytes

/-!
# Text edits

An edit replaces the text of one span. `TextEdit.apply` edits a text and fails exactly where the
span does not fit it; `TextEdit.remap` moves a recorded span along, so that it stays on the text it
denoted.

The offsets of a text fit a word, and so do those of the edited text. But a recorded span need not be
one of the text. `TextEdit.remapIn` moves a span in words, and it does the same as `TextEdit.remap`
unless a sum leaves the word.
-/

namespace CaseUnion

structure TextEdit where
  span : Span
  text : String
  deriving DecidableEq, Repr

namespace TextEdit

def insert (offset : Nat) (text : String) : TextEdit := ⟨⟨offset, offset⟩, text⟩

def applied? (e : TextEdit) (text : String) : Option String :=
  (Text.cut? e.span text.toList).map fun c =>
    String.ofList (c.before ++ e.text.toList ++ c.after)

def apply (e : TextEdit) (text : String) : Except Failure String :=
  match e.applied? text with
  | some edited => .ok edited
  | none => .error (.located (.spanOutOfRange e.span.start e.span.stop
      (Text.byteLength text.toList)) (some e.span))

def newStop (e : TextEdit) : Nat := e.span.start + Text.byteLength e.text.toList

/-- Where an offset goes. What lies behind the edit is shifted, and what lies inside it moves to
the end of the new text. At the very end of the edited span a start is shifted too, and so is a
stop unless the edit is an insertion. -/
def remapOffset (e : TextEdit) (offset : Nat) (isStart : Bool) : Nat :=
  if offset > e.span.stop || (offset == e.span.stop && (isStart || e.span.start < e.span.stop)) then
    offset - e.span.stop + e.newStop
  else if offset > e.span.start then e.newStop
  else offset

/-- Where a recorded span goes. The result is never inverted. -/
def remap (e : TextEdit) (s : Span) : Span :=
  let start := e.remapOffset s.start true
  ⟨start, max (e.remapOffset s.stop false) start⟩

end TextEdit

/-- The greatest offset that a word holds. -/
def maxOffset : Nat := 0xffffffffffffffff

/-- What happens to a sum of offsets that leaves the word. -/
inductive Overflow where
  /-- There is none: the program stops. -/
  | stops
  /-- It goes on from zero. -/
  | wraps
  deriving DecidableEq, Repr

def Overflow.add (o : Overflow) (i j : Nat) : Option Nat :=
  if i + j ≤ maxOffset then some (i + j)
  else match o with
    | stops => none
    | wraps => some ((i + j) % (maxOffset + 1))

namespace TextEdit

def remapOffsetIn (o : Overflow) (e : TextEdit) (offset : Nat) (isStart : Bool) : Option Nat := do
  let newStop ← o.add e.span.start (Text.byteLength e.text.toList)
  if offset > e.span.stop || (offset == e.span.stop && (isStart || e.span.start < e.span.stop)) then
    o.add (offset - e.span.stop) newStop
  else if offset > e.span.start then some newStop
  else some offset

/-- Where a recorded span goes, with all offsets in words. -/
def remapIn (o : Overflow) (e : TextEdit) (s : Span) : Option Span := do
  let start ← e.remapOffsetIn o s.start true
  let stop ← e.remapOffsetIn o s.stop false
  return ⟨start, max stop start⟩

end TextEdit
end CaseUnion
