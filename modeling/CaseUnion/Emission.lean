import CaseUnion.Emission.Payload
import CaseUnion.Layout
import CaseUnion.Settings
import CaseUnion.UnionType

/-!
# Generated units

The unit of a union opens its declaration again, inside the declarations around it, and adds the
members that make it a union: a tag enumeration, a tag field and a payload field, a constructor, a
factory for each case, dispatch, and equality.
-/

namespace CaseUnion

/-- How two values are compared, one member each. -/
inductive EqualityMember where
  | typed | untyped | hashCode | equal | notEqual
  deriving DecidableEq, Repr

/-- A member that generation adds to a union. -/
inductive UnitMember where
  | tags (width : TagWidth) (entries : List String)
  | fields
  | constructor
  | factory (case : UnionCase)
  | dispatch (cases : List UnionCase)
  | dispatchWithDefault (cases : List UnionCase)
  | equality (member : EqualityMember)
  deriving Repr

namespace UnionCase

def parameterTypes (c : UnionCase) : List String := c.parameters.map (·.type.qualified)

def parameterNames (c : UnionCase) : List String := c.parameters.map (·.name)

def signature (c : UnionCase) : String :=
  ", ".intercalate (c.parameters.map fun p => s!"{p.type.qualified} {p.name}")

def payloadType (c : UnionCase) : String := (Packed.ofList c.parameterTypes).typeText

def payloadValue (c : UnionCase) : String :=
  (Packed.ofList (c.parameterNames.zip c.parameterTypes)).valueText

def unpacked (c : UnionCase) : List String :=
  (List.range c.arity).map fun i => (ItemPath.ofPosition i).text

/-- The type of the callback of a case: its parameter types, then the type of the result. -/
def callbackType (c : UnionCase) : String :=
  "System.Func<" ++ ", ".intercalate (c.parameterTypes ++ ["TResult"]) ++ ">"

def callLines (c : UnionCase) : List Node :=
  if c.isNullary then [.line s!"return {c.name}();"]
  else
    [.line s!"var data = ({c.payloadType})_data!;",
      .line (s!"return {c.name}(" ++ ", ".intercalate c.unpacked ++ ");")]

def sectionLabel (c : UnionCase) : Node := .line s!"case Tag.{c.name}:"

def dispatchSection (c : UnionCase) : List Node :=
  [c.sectionLabel, if c.isNullary then .indented c.callLines else .scope c.callLines]

/-- The section of a dispatch that falls back to the default if its callback is missing. -/
def guardedSection (c : UnionCase) : List Node :=
  [c.sectionLabel, .scope (.line s!"if ({c.name} == null) goto default;" :: c.callLines)]

end UnionCase

namespace UnitMember

def callbacks (cases : List UnionCase) : List String :=
  cases.map fun c => s!"{c.callbackType} {c.name}"

/-- The parameter list of the dispatch with a default: the default callback, then the callbacks of
the cases, which may be left out. -/
def optionalCallbacks (cases : List UnionCase) : List String :=
  "System.Func<TResult> _" :: cases.map fun c => s!"{c.callbackType}? {c.name} = null"

def dispatchNode (name : String) (parameters : List String) (sections : List Node)
    (fallback : String) : Node :=
  .block (s!"public TResult {name}<TResult>(" ++ ", ".intercalate parameters ++ ")")
    [.block "switch (_tag)" (sections ++ [.line "default:", .indented [.line fallback]])]

def equalityNode (self : String) (isClass : Bool) : EqualityMember → Node
  | .typed =>
    let same := "_tag == other._tag && object.Equals(_data, other._data)"
    if isClass then
      .block s!"public bool Equals({self}? other)" [.line s!"return other is not null && {same};"]
    else .block s!"public bool Equals({self} other)" [.line s!"return {same};"]
  | .untyped =>
    .block "public override bool Equals(object? obj)"
      [.line s!"return obj is {self} other && Equals(other);"]
  | .hashCode =>
    .block "public override int GetHashCode()"
      [.line "return System.HashCode.Combine(_tag, _data);"]
  | .equal =>
    if isClass then
      .block s!"public static bool operator ==({self}? left, {self}? right)"
        [.line "return left is null ? right is null : left.Equals(right);"]
    else
      .block s!"public static bool operator ==({self} left, {self} right)"
        [.line "return left.Equals(right);"]
  | .notEqual =>
    if isClass then
      .block s!"public static bool operator !=({self}? left, {self}? right)"
        [.line "return !(left == right);"]
    else
      .block s!"public static bool operator !=({self} left, {self} right)"
        [.line "return !left.Equals(right);"]

def nodes (u : UnionType) : UnitMember → List Node
  | tags width entries =>
    [.block s!"private enum Tag : {width.keyword}" (entries.map fun name => .line s!"{name},")]
  | fields => [.line "private readonly Tag _tag;", .line "private readonly object? _data;"]
  | constructor =>
    [.block s!"private {u.descriptor.name}(Tag tag, object? data = default)"
      [.line "_tag = tag;", .line "_data = data;"]]
  | factory c =>
    let self := u.descriptor.selfReference
    if c.isNullary then
      [.line s!"public static readonly {self} {c.name} = new {self}(Tag.{c.name});"]
    else
      [.block s!"public static {self} {c.name}({c.signature})"
        [.line s!"return new {self}(Tag.{c.name}, {c.payloadValue});"]]
  | dispatch cases =>
    [dispatchNode "Match" (callbacks cases) (cases.flatMap (·.dispatchSection))
      "throw new System.ArgumentOutOfRangeException(nameof(_tag), _tag, null);"]
  | dispatchWithDefault cases =>
    [dispatchNode "MatchWithDefault" (optionalCallbacks cases)
      (cases.flatMap (·.guardedSection)) "return _();"]
  | equality member => [equalityNode u.descriptor.selfReference u.isClass member]

end UnitMember

namespace UnionType

def members (u : UnionType) : List UnitMember :=
  [.tags u.tagWidth (u.cases.map (·.name)), .fields, .constructor] ++
    u.cases.map .factory ++ [.dispatch u.cases] ++
    (if u.hasDefaultDispatch then [.dispatchWithDefault u.cases] else []) ++
    [.equality .typed, .equality .untyped, .equality .hashCode, .equality .equal,
      .equality .notEqual]

/-- Members are separated by blank lines. -/
def memberNodes (u : UnionType) : List Node :=
  [Node.blank].intercalate (u.members.map (UnitMember.nodes u))

/-- Puts nodes into the declarations around a union, outermost first. -/
def nest (inner : Node) : List Descriptor → Except Failure Node
  | [] => .ok inner
  | parent :: rest => do
    let body ← nest inner rest
    let header ← parent.declarationHeader
    return .block header [body]

def preamble (nameSpace : Option String) : List Node :=
  [.line "// <auto-generated/>", .line "#nullable enable", .blank] ++
    match nameSpace with
    | some name => [.line s!"namespace {name};", .blank]
    | none => []

/-- The code of the whole unit; fails only for a type that is not a declaration. -/
def unitNodes (u : UnionType) : Except Failure (List Node) := do
  let header ← u.descriptor.declarationHeader
  let own := Node.block s!"{header} : System.IEquatable<{u.descriptor.selfReference}>" u.memberNodes
  let nested ← nest own u.descriptor.parents
  return preamble u.descriptor.nameSpace ++ [nested]

def emit (u : UnionType) (s : Settings) : Except Failure String := do
  let nodes ← u.unitNodes
  return Node.print nodes s.indentWidth

def fileName (u : UnionType) (s : Settings) : String :=
  u.descriptor.fileStem ++ s.generatedSuffix

end UnionType
end CaseUnion
