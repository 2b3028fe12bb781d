import CaseUnion.Descriptor

/-!
# Unions

A union is a type with a list of cases in declared order; a case has a name and typed parameters.
-/

namespace CaseUnion

structure CaseParameter where
  name : String
  type : Descriptor
  deriving Repr

structure UnionCase where
  name : String
  parameters : List CaseParameter
  deriving Repr

namespace UnionCase

def arity (c : UnionCase) : Nat := c.parameters.length

def isNullary (c : UnionCase) : Bool := c.parameters.isEmpty

/-- Within a union a case is known by its name alone. -/
def sameCase (c d : UnionCase) : Bool := c.name == d.name

end UnionCase

inductive TagWidth where
  | byte | short | word
  deriving DecidableEq, Repr

namespace TagWidth

/-- The smallest type with a tag for every case. -/
def forCount (count : Nat) : TagWidth :=
  if count ≤ 0x100 then byte else if count ≤ 0x10000 then short else word

def keyword : TagWidth → String
  | byte => "byte"
  | short => "ushort"
  | word => "uint"

end TagWidth

structure UnionType where
  name : String
  descriptor : Descriptor
  /-- The cases in declared order; the position of a case is its tag. -/
  cases : List UnionCase
  allowDefault : Bool
  deriving Repr

namespace UnionType

def case? (u : UnionType) (name : String) : Option UnionCase := u.cases.find? (·.name == name)

def position? (u : UnionType) (name : String) : Option Nat :=
  u.cases.findIdx? (·.name == name)

def qualified (u : UnionType) : String := u.descriptor.qualified

/-- A dispatch with a default handler exists only where there is a choice. -/
def hasDefaultDispatch (u : UnionType) : Bool := u.cases.length > 1

def tagWidth (u : UnionType) : TagWidth := .forCount u.cases.length

def isClass (u : UnionType) : Bool := u.descriptor.kind? == some .classType

end UnionType
end CaseUnion
