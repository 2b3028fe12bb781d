import CaseUnion.Settings
import CaseUnion.UnionType

/-!
# Extraction

A declaration is a union if it is marked, partial, a struct or a class, and has exactly one case
list. `extract` reads its cases and reports the first offence; `extractAll` reads every declaration
of a compilation and keeps the first union of each definition.
-/

namespace CaseUnion

structure Eligible where
  marker : Attribute
  caseList : TypeDecl
  deriving Repr

namespace Eligible

/-- The methods of the case list that stand for cases. -/
def caseMethods (e : Eligible) : List Method :=
  e.caseList.methods.filter (·.returns.isVoid)

def allowDefault (e : Eligible) : Bool := (e.marker.flag? "AllowDefault").getD false

end Eligible

namespace Settings

def isCaseList (s : Settings) (d : TypeDecl) : Bool :=
  d.kind == .interfaceType && d.name == s.caseList

def eligible? (s : Settings) (d : TypeDecl) : Option Eligible :=
  match d.attribute? s.marker with
  | none => none
  | some marker =>
    if d.header.modifiers.isPartial && d.kind != .interfaceType then
      match d.nestedTypes.filter s.isCaseList with
      | [caseList] => some ⟨marker, caseList⟩
      | _ => none
    else none

end Settings

/-- Reads the parameters of a case. A repeated name is reported before a missing type. -/
def readParameters (unionName caseName : String) (inScope seen : List String) :
    List Parameter → Except Cause (List CaseParameter)
  | [] => .ok []
  | p :: rest =>
    if seen.contains p.name then .error (.duplicateParameter unionName caseName p.name)
    else
      match p.type with
      | none => .error (.unresolvedParameter unionName caseName p.name)
      | some type => do
        let others ← readParameters unionName caseName inScope (p.name :: seen) rest
        return ⟨p.name, .ofReference type inScope⟩ :: others

/-- Reads the cases, each offence with the span of its method. A repeated case name is reported
before anything about its parameters. -/
def readCases (unionName : String) (inScope seen : List String) :
    List Method → Except (Cause × Option Span) (List UnionCase)
  | [] => .ok []
  | m :: rest =>
    if seen.contains m.name then .error (.duplicateCase unionName m.name, m.span)
    else
      match readParameters unionName m.name inScope [] m.parameters with
      | .error cause => .error (cause, m.span)
      | .ok parameters => do
        let others ← readCases unionName inScope (m.name :: seen) rest
        return ⟨m.name, parameters⟩ :: others

/-- The type parameters that a declaration can use: its own and those of the declarations around
it. -/
def Entry.scope (e : Entry) : List String :=
  (e.enclosing ++ [e.decl]).flatMap (·.typeParameters)

def Settings.extract (s : Settings) (document : Document) (e : Entry) :
    Except Failure (Option UnionType) :=
  match s.eligible? e.decl with
  | none => .ok none
  | some eligible =>
    let descriptor := Descriptor.ofEntry e document.nameSpace
    match readCases descriptor.qualified e.scope [] eligible.caseMethods with
    | .error (cause, span) => .error ((Failure.located cause span).withSource document.source)
    | .ok cases => .ok (some ⟨e.decl.name, descriptor, cases, eligible.allowDefault⟩)

structure Extraction where
  unions : List UnionType
  failures : List Failure
  deriving Repr

namespace Extraction

/-- Sorts results into unions and failures. A union without cases is dropped, and so is a union
whose key was taken before. -/
def collect (taken : List String) :
    List (String × Except Failure (Option UnionType)) → Extraction
  | [] => ⟨[], []⟩
  | (_, .error failure) :: rest =>
    let others := collect taken rest
    { others with failures := failure :: others.failures }
  | (_, .ok none) :: rest => collect taken rest
  | (key, .ok (some u)) :: rest =>
    if u.cases.isEmpty || taken.contains key then collect taken rest
    else
      let others := collect (key :: taken) rest
      { others with unions := u :: others.unions }

end Extraction

namespace Compilation

def extractEach (c : Compilation) (s : Settings) :
    List (String × Except Failure (Option UnionType)) :=
  c.entries.filterMap fun e => (c.documentOf? e).map fun d => (e.key, s.extract d e)

def extractAll (c : Compilation) (s : Settings) : Extraction :=
  .collect [] (c.extractEach s)

end Compilation
end CaseUnion
