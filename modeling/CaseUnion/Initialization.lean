import CaseUnion.Extraction

/-!
# Forbidden initializations

A value of a union must come from one of its cases. An expression that initializes a union in
another way is reported, unless the marker of the union allows it or the document is generated.
-/

namespace CaseUnion

namespace Compilation

/-- The first declaration of a type that is a union without a default value. -/
def guarded? (c : Compilation) (s : Settings) (type : TypeRef) (nameSpace : Option String) :
    Option Entry :=
  ((c.lookup type nameSpace).find? fun (_, e) =>
    match s.eligible? e.decl with
    | some eligible => !eligible.allowDefault
    | none => false).map (·.2)

/-- The report on one expression of the document at a position. The declaration of the union is
pointed at only if it stands in the same document. -/
def initialization? (c : Compilation) (s : Settings) (position : Nat) (d : Document)
    (e : Expression) : Option Failure := do
  let type ← e.type
  let entry ← c.guarded? s type d.nameSpace
  let found := Failure.located .defaultInitialization (some e.span)
  let labelled :=
    match entry.decl.header.span with
    | some span =>
      if entry.document = position then
        found.withLabel ⟨span, s!"union '{entry.decl.name}' declared here"⟩
      else found
    | none => found
  return labelled.withSource d.source

structure Finding where
  sourceName : String
  span : Span
  failure : Failure

def Finding.precedes (a b : Finding) : Bool :=
  a.sourceName < b.sourceName || (a.sourceName == b.sourceName && a.span.precedes b.span)

def findingsIn (c : Compilation) (s : Settings) (position : Nat) (d : Document) : List Finding :=
  if s.isGenerated d.sourceName then []
  else d.expressions.filterMap fun e =>
    (c.initialization? s position d e).map fun failure => ⟨d.sourceName, e.span, failure⟩

/-- All findings in order; the order is stable. -/
def findings (c : Compilation) (s : Settings) : List Finding :=
  (c.documents.zipIdx.flatMap fun (d, position) => c.findingsIn s position d).mergeSort
    Finding.precedes

def check (c : Compilation) (s : Settings) : List Failure := (c.findings s).map (·.failure)

end Compilation
end CaseUnion
