/-!
# Type references

A type reference names a type at a place of use: a dotted name whose segments may have arguments,
an array of another type, or its nullable form. `TypeRef.render` writes a reference in its one
normal form.
-/

namespace CaseUnion

mutual

inductive TypeRef where
  | named (segments : List TypeSegment)
  | array (element : TypeRef)
  | nullable (inner : TypeRef)

inductive TypeSegment where
  | mk (name : String) (arguments : List TypeRef)

end

deriving instance Repr for TypeRef, TypeSegment

instance : Inhabited TypeRef := ⟨.named []⟩

def TypeSegment.name : TypeSegment → String
  | .mk name _ => name

def TypeSegment.arguments : TypeSegment → List TypeRef
  | .mk _ arguments => arguments

mutual

/-- The normal form: no blanks except one after each comma. -/
def TypeRef.chars : TypeRef → List Char
  | .named segments => segmentsChars segments
  | .array element => element.chars ++ ['[', ']']
  | .nullable inner => inner.chars ++ ['?']

def TypeSegment.chars : TypeSegment → List Char
  | .mk name [] => name.toList
  | .mk name (first :: rest) =>
    name.toList ++ '<' :: (first.chars ++ (argumentsChars rest ++ ['>']))

def segmentsChars : List TypeSegment → List Char
  | [] => []
  | [last] => last.chars
  | first :: second :: rest => first.chars ++ '.' :: segmentsChars (second :: rest)

def argumentsChars : List TypeRef → List Char
  | [] => []
  | first :: rest => ',' :: ' ' :: (first.chars ++ argumentsChars rest)

end

namespace TypeRef

def render (t : TypeRef) : String := String.ofList t.chars

/-- A name of one segment without arguments. -/
def simple (name : String) : TypeRef := named [.mk name []]

def simple? : TypeRef → Option String
  | named [.mk name []] => some name
  | _ => none

def void : TypeRef := simple "void"

def isVoid (t : TypeRef) : Bool := t.simple? == some "void"

/-- A name and a number of type parameters, as one component of an index key. -/
def keyComponent (name : String) (arity : Nat) : String :=
  if arity = 0 then name else s!"{name}`{arity}"

/-- The index key of the definition that a name refers to. Arrays and nullable types have none. -/
def definitionKey? : TypeRef → Option String
  | named segments =>
    some (".".intercalate (segments.map fun s => keyComponent s.name s.arguments.length))
  | _ => none

end TypeRef
end CaseUnion
