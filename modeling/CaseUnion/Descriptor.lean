import CaseUnion.Compilation
import CaseUnion.Failure

/-!
# Type descriptors

A descriptor says of a type all that generated code needs: its names, how it came to be known, and
the descriptors of the declarations around it.
-/

namespace CaseUnion

inductive Origin where
  /-- A declaration, which can be opened again. -/
  | declared (kind : TypeKind)
  /-- A type known by reference only. -/
  | referenced
  /-- A type parameter in scope at the place of use. -/
  | typeParameter
  deriving DecidableEq, Repr

structure Descriptor where
  name : String
  /-- The name with its namespace and the types around it. -/
  qualified : String
  nameSpace : Option String
  origin : Origin
  accessibility : Accessibility
  modifiers : Modifiers
  typeParameters : List String
  /-- The types around it, outermost first. -/
  parents : List Descriptor
  deriving Repr

namespace Descriptor

def generic (name : String) (typeParameters : List String) : String :=
  if typeParameters.isEmpty then name
  else name ++ "<" ++ ", ".intercalate typeParameters ++ ">"

def ofHeader (d : TypeHeader) (nameSpace : Option String) (parents : List Descriptor) :
    Descriptor where
  name := d.name
  qualified :=
    let own := generic d.name d.typeParameters
    match (parents.getLast?.map (·.qualified)).or nameSpace with
    | some outer => s!"{outer}.{own}"
    | none => own
  nameSpace := nameSpace
  origin := .declared d.kind
  accessibility := d.accessibility
  modifiers := d.modifiers
  typeParameters := d.typeParameters
  parents := parents

/-- Describes declarations that stand inside each other, outermost first, after those described
already. -/
def chain (nameSpace : Option String) (parents : List Descriptor) :
    List TypeDecl → List Descriptor
  | [] => parents
  | d :: rest => chain nameSpace (parents ++ [ofHeader d.header nameSpace parents]) rest

def ofEntry (e : Entry) (nameSpace : Option String) : Descriptor :=
  ofHeader e.decl.header nameSpace (chain nameSpace [] e.enclosing)

/-- Describes a type as it is used. A name alone that is in scope is a type parameter. -/
def ofReference (type : TypeRef) (inScope : List String) : Descriptor where
  name := type.render
  qualified := type.render
  nameSpace := none
  origin :=
    match type.simple? with
    | some name => if inScope.contains name then .typeParameter else .referenced
    | none => .referenced
  accessibility := .anywhere
  modifiers := {}
  typeParameters := []
  parents := []

def isTypeParameter (d : Descriptor) : Bool := d.origin == .typeParameter

def kind? (d : Descriptor) : Option TypeKind :=
  match d.origin with
  | .declared kind => some kind
  | _ => none

def selfReference (d : Descriptor) : String := generic d.name d.typeParameters

def headerOf (d : Descriptor) (kind : TypeKind) : String :=
  d.accessibility.keyword ++ " " ++
    (if d.modifiers.isStatic then "static " else "") ++
    (if d.modifiers.isReadonly then "readonly " else "") ++
    "partial " ++ kind.keyword ++ " " ++ d.selfReference

/-- The header of a declaration; only a declared type has one. -/
def declarationHeader (d : Descriptor) : Except Failure String :=
  match d.kind? with
  | some kind => .ok (d.headerOf kind)
  | none => .error (.of (.notDeclarable d.qualified))

/-- A character of a qualified name as it appears in a file name: blanks vanish, and the marks
around type parameters become underscores. -/
def stemChar : Char → Option Char
  | ' ' => none
  | '<' => some '_'
  | '>' => some '_'
  | ',' => some '_'
  | c => some c

def fileStem (d : Descriptor) : String := String.ofList (d.qualified.toList.filterMap stemChar)

end Descriptor
end CaseUnion
