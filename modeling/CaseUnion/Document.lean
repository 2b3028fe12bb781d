import CaseUnion.Decl
import CaseUnion.TextEdit

/-!
# Source documents

A document is one file of host source together with what the host knows about it: declarations,
initialization expressions, calls and diagnostics. Every span points into its text. Editing the
text moves every recorded span along and changes nothing else.
-/

namespace CaseUnion

inductive ExpressionKind where
  | defaultExpression | defaultLiteral | objectCreation | implicitObjectCreation
  deriving DecidableEq, Repr

namespace ExpressionKind

def word : ExpressionKind → String
  | defaultExpression => "default_expression"
  | defaultLiteral => "default_literal"
  | objectCreation => "object_creation"
  | implicitObjectCreation => "implicit_object_creation"

def all : List ExpressionKind :=
  [defaultExpression, defaultLiteral, objectCreation, implicitObjectCreation]

end ExpressionKind

/-- An initialization expression and its static type, if the host knows it. -/
structure Expression where
  kind : ExpressionKind
  type : Option TypeRef := none
  span : Span
  deriving Repr

structure Argument where
  name : Option String := none
  expression : String
  deriving DecidableEq, Repr

namespace Argument

def render (a : Argument) : String :=
  match a.name with
  | some name => s!"{name}: {a.expression}"
  | none => a.expression

end Argument

/-- A method call. The receiver is the static type of the expression it is called on. -/
structure Invocation where
  callee : String
  method : String
  receiver : Option TypeRef := none
  arguments : List Argument := []
  span : Span
  deriving Repr

namespace Invocation

def positionalCount (i : Invocation) : Nat :=
  i.arguments.countP (·.name.isNone)

def namedArguments (i : Invocation) : List String :=
  i.arguments.filterMap (·.name)

end Invocation

structure HostDiagnostic where
  id : String
  span : Span
  deriving DecidableEq, Repr

structure Document where
  path : String
  /-- The name of the host file. -/
  file : Option String := none
  nameSpace : Option String := none
  text : String := ""
  types : List TypeDecl := []
  expressions : List Expression := []
  invocations : List Invocation := []
  diagnostics : List HostDiagnostic := []
  deriving Repr

mutual

/-- Moves every span of a declaration, at any depth. -/
def TypeDecl.mapSpans (f : Span → Span) : TypeDecl → TypeDecl
  | ⟨header, members⟩ =>
    ⟨{ header with span := header.span.map f }, Member.mapAllSpans f members⟩

def Member.mapSpans (f : Span → Span) : Member → Member
  | .type decl => .type (decl.mapSpans f)
  | .method decl => .method { decl with span := decl.span.map f }

def Member.mapAllSpans (f : Span → Span) : List Member → List Member
  | [] => []
  | m :: rest => m.mapSpans f :: Member.mapAllSpans f rest

end

namespace Document

/-- The name a document is known by: its host file, or else its own path. -/
def sourceName (d : Document) : String := d.file.getD d.path

def source (d : Document) : Source := ⟨d.sourceName, d.text⟩

def slice? (d : Document) (s : Span) : Option String := Text.slice? s d.text

def mapSpans (f : Span → Span) (d : Document) : Document :=
  { d with
    types := d.types.map (TypeDecl.mapSpans f)
    expressions := d.expressions.map fun e => { e with span := f e.span }
    invocations := d.invocations.map fun i => { i with span := f i.span }
    diagnostics := d.diagnostics.map fun g => { g with span := f g.span } }

/-- Edits the text and moves every recorded span along. -/
def edit (d : Document) (e : TextEdit) : Except Failure Document := do
  let text ← e.apply d.text
  return { d.mapSpans e.remap with text := text }

end Document
end CaseUnion
