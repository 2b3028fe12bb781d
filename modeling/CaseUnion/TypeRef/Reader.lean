import CaseUnion.Failure
import CaseUnion.TypeRef
import CaseUnion.TypeRef.Token

/-!
# Reading type references

The grammar of a type is `Seg ('.' Seg)*` followed by any number of `[]` and `?`, where a segment is
a name with an optional list of types in angle brackets. A reader goes over the tokens once. Its
state is what it expects next together with the argument lists that are still open, so every token
is either taken or blamed on the spot.
-/

namespace CaseUnion.TypeRef

/-- An open argument list: the segments before the one it belongs to, the name of that one, and the
arguments that are complete. -/
structure Opened where
  before : List TypeSegment
  name : String
  arguments : List TypeRef

inductive Expecting where
  /-- A name, at the start of a type or after a dot. -/
  | name (before : List TypeSegment)
  /-- What may follow a name. -/
  | afterName (before : List TypeSegment) (name : String)
  /-- What may follow a complete segment. -/
  | afterSegment (segments : List TypeSegment)
  /-- What may follow a type that has no more segments. -/
  | afterType (type : TypeRef)
  /-- The second bracket of an array. -/
  | bracket (element : TypeRef)

structure Reading where
  opened : List Opened
  expecting : Expecting

/-- Why a text is not a type reference. -/
inductive Blame where
  | unexpected (found : Char)
  | trailing (found : Char)
  | expected (wanted found : Char)
  | missingName
  | missing (wanted : Char)
  deriving DecidableEq, Repr

def Blame.message : Blame → String
  | unexpected found => s!"unexpected character '{found}'"
  | trailing found => s!"unexpected trailing character '{found}'"
  | expected wanted found => s!"expected '{wanted}', found '{found}'"
  | missingName => "expected a type name, found end of input"
  | missing wanted => s!"expected '{wanted}', found end of input"

namespace Reading

def start : Reading := ⟨[], .name []⟩

def stepAfterType (opened : List Opened) (type : TypeRef) (t : Token) : Except Blame Reading :=
  match t with
  | .mark '?' => .ok ⟨opened, .afterType (.nullable type)⟩
  | .mark '[' => .ok ⟨opened, .bracket type⟩
  | t =>
    match opened with
    | [] => .error (.trailing t.head)
    | inner :: outer =>
      match t with
      | .mark ',' => .ok ⟨{ inner with arguments := inner.arguments ++ [type] } :: outer, .name []⟩
      | .mark '>' => .ok ⟨outer, .afterSegment
          (inner.before ++ [.mk inner.name (inner.arguments ++ [type])])⟩
      | t => .error (.expected '>' t.head)

def stepAfterSegment (opened : List Opened) (segments : List TypeSegment) (t : Token) :
    Except Blame Reading :=
  match t with
  | .mark '.' => .ok ⟨opened, .name segments⟩
  | t => stepAfterType opened (.named segments) t

def step (r : Reading) (t : Token) : Except Blame Reading :=
  match r.expecting with
  | .name before =>
    match t with
    | .word first rest => .ok ⟨r.opened, .afterName before (String.ofList (first :: rest))⟩
    | .mark c => .error (.unexpected c)
  | .afterName before name =>
    match t with
    | .mark '<' => .ok ⟨⟨before, name, []⟩ :: r.opened, .name []⟩
    | t => stepAfterSegment r.opened (before ++ [.mk name []]) t
  | .afterSegment segments => stepAfterSegment r.opened segments t
  | .afterType type => stepAfterType r.opened type t
  | .bracket element =>
    match t with
    | .mark ']' => .ok ⟨r.opened, .afterType (.array element)⟩
    | t => .error (.expected ']' t.head)

def finish (r : Reading) : Except Blame TypeRef :=
  let close (type : TypeRef) : Except Blame TypeRef :=
    if r.opened.isEmpty then .ok type else .error (.missing '>')
  match r.expecting with
  | .name _ => .error .missingName
  | .afterName before name => close (.named (before ++ [.mk name []]))
  | .afterSegment segments => close (.named segments)
  | .afterType type => close type
  | .bracket _ => .error (.missing ']')

def run (r : Reading) : List Token → Except Blame Reading
  | [] => .ok r
  | t :: rest =>
    match r.step t with
    | .ok next => run next rest
    | .error blame => .error blame

end Reading

def ofTokens (tokens : List Token) : Except Blame TypeRef :=
  match Reading.start.run tokens with
  | .ok last => last.finish
  | .error blame => .error blame

def read (text : List Char) : Except Blame TypeRef := ofTokens (Token.scan text)

/-- Reads a type reference; a failure quotes the whole text. -/
def parse (text : String) : Except Failure TypeRef :=
  match read text.toList with
  | .ok type => .ok type
  | .error blame => .error (.of (.invalidTypeRef text blame.message))

end CaseUnion.TypeRef
