import CaseUnion.Span

/-!
# Byte offsets into a list of characters

Offsets count the bytes of the UTF-8 encoding. An offset is a boundary when it falls between two
characters. `splitAtByte? n cs` divides `cs` at a boundary and fails at any other offset; nothing
is lost by dividing (`splitAtByte?_append`), and the first part has exactly `n` bytes
(`byteLength_of_splitAtByte?`).
-/

namespace CaseUnion.Text

def byteLength : List Char → Nat
  | [] => 0
  | c :: cs => c.utf8Size + byteLength cs

/-- The part before the byte offset `n` and the part after it, where `n` is a boundary. -/
def splitAtByte? : Nat → List Char → Option (List Char × List Char)
  | 0, cs => some ([], cs)
  | _ + 1, [] => none
  | n + 1, c :: cs =>
    if c.utf8Size ≤ n + 1 then
      (splitAtByte? (n + 1 - c.utf8Size) cs).map fun (before, after) => (c :: before, after)
    else none

/-- A text divided by a span: what stands before it, inside it and after it. -/
structure Cut where
  before : List Char
  inside : List Char
  after : List Char
  deriving DecidableEq, Repr

/-- Divides a text by a span that fits it: ordered, in range, and with both ends on boundaries. -/
def cut? (s : Span) (cs : List Char) : Option Cut :=
  if s.start ≤ s.stop then do
    let (upTo, after) ← splitAtByte? s.stop cs
    let (before, inside) ← splitAtByte? s.start upTo
    some ⟨before, inside, after⟩
  else none

def slice? (s : Span) (text : String) : Option String :=
  (cut? s text.toList).map fun c => String.ofList c.inside

theorem byteLength_append (a b : List Char) :
    byteLength (a ++ b) = byteLength a + byteLength b := by
  induction a with
  | nil => simp [byteLength]
  | cons c cs ih => simp [byteLength, ih, Nat.add_assoc]

theorem splitAtByte?_append {n : Nat} {cs a b : List Char}
    (h : splitAtByte? n cs = some (a, b)) : a ++ b = cs := by
  induction cs generalizing n a with
  | nil =>
    cases n with
    | zero => simp_all [splitAtByte?]
    | succ n => simp [splitAtByte?] at h
  | cons c cs ih =>
    cases n with
    | zero => simp_all [splitAtByte?]
    | succ n =>
      simp only [splitAtByte?] at h
      split at h
      · obtain ⟨⟨x, y⟩, hxy, heq⟩ := Option.map_eq_some_iff.1 h
        simp only [Prod.mk.injEq] at heq
        obtain ⟨rfl, rfl⟩ := heq
        simp [ih hxy]
      · simp at h

theorem byteLength_of_splitAtByte? {n : Nat} {cs a b : List Char}
    (h : splitAtByte? n cs = some (a, b)) : byteLength a = n := by
  induction cs generalizing n a with
  | nil =>
    cases n with
    | zero => simp_all [splitAtByte?, byteLength]
    | succ n => simp [splitAtByte?] at h
  | cons c cs ih =>
    cases n with
    | zero => simp_all [splitAtByte?, byteLength]
    | succ n =>
      simp only [splitAtByte?] at h
      split at h
      · obtain ⟨⟨x, y⟩, hxy, heq⟩ := Option.map_eq_some_iff.1 h
        simp only [Prod.mk.injEq] at heq
        obtain ⟨rfl, rfl⟩ := heq
        simp only [byteLength, ih hxy]
        omega
      · simp at h

end CaseUnion.Text
