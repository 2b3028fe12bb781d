import CaseUnion.Datum.Fields
import CaseUnion.Document
import CaseUnion.TypeRef.Reader

/-!
# Documents as data

The fields of a document and of everything in it, read from data and written as data. Writing omits
what is absent or empty, except for a few fields that are always written.
-/

namespace CaseUnion

namespace Datum

/-- An offset is written as an integer of 64 bits without a sign. -/
def asOffset : Datum → Except Fault Nat
  | .int n => if IsUnsigned64 n then .ok n.toNat else .error (.mismatch "an offset")
  | .plain word =>
    match wordOffset? word with
    | some n => .ok n
    | none => .error (.mismatch "an offset")
  | _ => .error (.mismatch "an offset")

def asSpan (c : Conventions) (d : Datum) : Except Fault Span := do
  match ← d.asList with
  | start :: stop :: rest =>
    if rest.isEmpty || c.listUse == .unbounded then return ⟨← start.asOffset, ← stop.asOffset⟩
    else .error .tooLong
  | _ => .error (.mismatch "two offsets")

def asTypeRef (d : Datum) : Except Fault TypeRef := do
  match TypeRef.read (← d.asText).toList with
  | .ok type => .ok type
  | .error blame => .error (.typeRef blame.message)

def asModifiers (d : Datum) : Except Fault Modifiers := do
  match Modifiers.ofWords (← d.asListOf asText) with
  | .ok modifiers => .ok modifiers
  | .error word => .error (.mismatch (Modifiers.unknownWordMessage word))

/-- An argument of an attribute: a flag, a signed 64-bit integer or a text. -/
def asAttributeValue (c : Conventions) (d : Datum) : Except Fault AttributeValue := do
  match ← d.asTyped c with
  | .bool value => return .flag value
  | .int value =>
    if IsSigned64 value then return .number value
    else .error (.mismatch "a signed 64-bit integer")
  | .text value => return .text value
  | _ => .error (.mismatch "a flag, an integer or a text")

def asAttributeArguments (c : Conventions) (d : Datum) : Except Fault AttributeArguments := do
  let entries ← (← d.asTable).mapM fun (name, value) => return (name, ← value.asAttributeValue c)
  return .ofList entries

def asAttribute (c : Conventions) (d : Datum) : Except Fault Attribute := do
  let f ← d.fields c ["name", "args"]
  return ⟨← f.required "name" asText, ← f.withDefault "args" .empty (asAttributeArguments c)⟩

def asParameter (c : Conventions) (d : Datum) : Except Fault Parameter := do
  let f ← d.fields c ["name", "type"]
  return ⟨← f.required "name" asText, ← f.optional "type" asTypeRef⟩

def asMethod (c : Conventions) (d : Datum) : Except Fault Method := do
  let f ← d.fields c ["name", "returns", "parameters", "span"]
  return {
    name := ← f.required "name" asText
    returns := ← f.withDefault "returns" .void asTypeRef
    parameters := ← f.withDefault "parameters" [] (asListOf (asParameter c))
    span := ← f.optional "span" (asSpan c) }

def typeFieldNames : List String :=
  ["name", "kind", "accessibility", "modifiers", "type-parameters", "attributes", "members", "span"]

def typeHeader (c : Conventions) (f : Fields) : Except Fault TypeHeader := do
  return {
    name := ← f.required "name" asText
    kind := ← f.required "kind" (asChoice c TypeKind.keyword TypeKind.all)
    accessibility := ← f.withDefault "accessibility" .assembly
      (asChoice c Accessibility.keyword Accessibility.all)
    modifiers := ← f.withDefault "modifiers" {} asModifiers
    typeParameters := ← f.withDefault "type-parameters" [] (asListOf asText)
    attributes := ← f.withDefault "attributes" [] (asListOf (asAttribute c))
    span := ← f.optional "span" (asSpan c) }

/-- The name of the entry that says what kind of member an entry of a type is. -/
def memberTag : String := "member"

def memberKinds : List String := ["type", "method"]

def isMemberTag (name : Datum) : Bool :=
  match name.typed? with
  | some (.text word) => word == memberTag
  | _ => false

/-- The kind of a member, if there is exactly one tag. -/
def asMemberKind (c : Conventions) : List Datum → Except Fault String
  | [] => .error (.missing memberTag)
  | [tag] => tag.asWord c memberKinds
  | _ => .error (.repeated memberTag)

/-- A member is data with a tag: an entry of a table, or the first element of a list. The words
inside it take their types before its kind is known. -/
def tagged (c : Conventions) : Datum → Except Fault (String × Datum)
  | .table entries => do
    let (tags, others) := entries.partition (·.1 == memberTag)
    return (← asMemberKind c (tags.map (·.2)), ← asTyped c (.table others))
  | .mapping entries => do
    let (tags, others) := entries.partition (isMemberTag ·.1)
    return (← asMemberKind c (tags.map (·.2)), ← asTyped c (.mapping others))
  | .list (tag :: rest) => return (← asMemberKind c [tag], ← asTyped c (.list rest))
  | _ => .error (.mismatch "a member")

/-- A declaration in which members nest at most `levels` deep. -/
def asTypeDecl : (levels : Nat) → Conventions → Datum → Except Fault TypeDecl
  | 0, _, _ => .error .tooLong
  | levels + 1, c, d => do
    let f ← d.fields c typeFieldNames
    let header ← typeHeader c f
    let members ← f.withDefault "members" [] <| asListOf fun m => do
      let (kind, body) ← m.tagged c
      if kind = "type" then return .type (← asTypeDecl levels c.typed body)
      else if kind = "method" then return .method (← body.asMethod c.typed)
      else .error (.mismatch "a member")
    return ⟨header, members⟩

def asExpression (c : Conventions) (d : Datum) : Except Fault Expression := do
  let f ← d.fields c ["kind", "type", "span"]
  return {
    kind := ← f.required "kind" (asChoice c ExpressionKind.word ExpressionKind.all)
    type := ← f.optional "type" asTypeRef
    span := ← f.required "span" (asSpan c) }

def asArgument (c : Conventions) (d : Datum) : Except Fault Argument := do
  let f ← d.fields c ["name", "expression"]
  return ⟨← f.optional "name" asText, ← f.required "expression" asText⟩

def asInvocation (c : Conventions) (d : Datum) : Except Fault Invocation := do
  let f ← d.fields c ["callee", "method", "receiver", "arguments", "span"]
  return {
    callee := ← f.required "callee" asText
    method := ← f.required "method" asText
    receiver := ← f.optional "receiver" asTypeRef
    arguments := ← f.withDefault "arguments" [] (asListOf (asArgument c))
    span := ← f.required "span" (asSpan c) }

def asHostDiagnostic (c : Conventions) (d : Datum) : Except Fault HostDiagnostic := do
  let f ← d.fields c ["id", "span"]
  return ⟨← f.required "id" asText, ← f.required "span" (asSpan c)⟩

/-- The document with the given path whose other fields are given as data. -/
def asDocument (path : String) (c : Conventions) (d : Datum) : Except Fault Document := do
  let f ← d.fields c
    ["file", "namespace", "text", "types", "expressions", "invocations", "diagnostics"]
  return {
    path := path
    file := ← f.optional "file" asText
    nameSpace := ← f.optional "namespace" asText
    text := ← f.withDefault "text" "" asText
    types := ← f.withDefault "types" [] (asListOf (asTypeDecl d.depth c))
    expressions := ← f.withDefault "expressions" [] (asListOf (asExpression c))
    invocations := ← f.withDefault "invocations" [] (asListOf (asInvocation c))
    diagnostics := ← f.withDefault "diagnostics" [] (asListOf (asHostDiagnostic c)) }

/-- An entry that is written only if there is something to write. -/
def optionalEntry {α : Type} (name : String) (write : α → Datum) : Option α → Fields
  | some value => [(name, write value)]
  | none => []

def nonEmptyEntry {α : Type} (name : String) (write : α → Datum) : List α → Fields
  | [] => []
  | items => [(name, .list (items.map write))]

def ofSpan (s : Span) : Datum := .list [.int s.start, .int s.stop]

def ofTypeRef (t : TypeRef) : Datum := .text t.render

def ofAttributeValue : AttributeValue → Datum
  | .flag value => .bool value
  | .number value => .int value
  | .text value => .text value

def ofAttribute (a : Attribute) : Datum :=
  .table (("name", .text a.name) ::
    match a.arguments.entries with
    | [] => []
    | entries => [("args", .table (entries.map fun (name, v) => (name, ofAttributeValue v)))])

def ofParameter (p : Parameter) : Datum :=
  .table (("name", .text p.name) :: optionalEntry "type" ofTypeRef p.type)

def methodEntries (m : Method) : Fields :=
  [("name", .text m.name), ("returns", ofTypeRef m.returns),
    ("parameters", .list (m.parameters.map ofParameter))] ++ optionalEntry "span" ofSpan m.span

def headerEntries (h : TypeHeader) : Fields :=
  [("name", .text h.name), ("kind", .text h.kind.keyword),
    ("accessibility", .text h.accessibility.keyword),
    ("modifiers", .list (h.modifiers.words.map .text))] ++
    nonEmptyEntry "type-parameters" .text h.typeParameters ++
    nonEmptyEntry "attributes" ofAttribute h.attributes

mutual

def typeEntries : TypeDecl → Fields
  | ⟨header, members⟩ =>
    headerEntries header ++
      (match ofMembers members with
        | [] => []
        | items => [("members", .list items)]) ++
      optionalEntry "span" ofSpan header.span

def ofMember : Member → Datum
  | .type decl => .table (("member", .text "type") :: typeEntries decl)
  | .method m => .table (("member", .text "method") :: methodEntries m)

def ofMembers : List Member → List Datum
  | [] => []
  | m :: rest => ofMember m :: ofMembers rest

end

def ofTypeDecl (d : TypeDecl) : Datum := .table (typeEntries d)

def ofExpression (e : Expression) : Datum :=
  .table ([("kind", .text e.kind.word)] ++ optionalEntry "type" ofTypeRef e.type ++
    [("span", ofSpan e.span)])

def ofArgument (a : Argument) : Datum :=
  .table (optionalEntry "name" .text a.name ++ [("expression", .text a.expression)])

def ofInvocation (i : Invocation) : Datum :=
  .table ([("callee", .text i.callee), ("method", .text i.method)] ++
    optionalEntry "receiver" ofTypeRef i.receiver ++
    [("arguments", .list (i.arguments.map ofArgument)), ("span", ofSpan i.span)])

def ofHostDiagnostic (d : HostDiagnostic) : Datum :=
  .table [("id", .text d.id), ("span", ofSpan d.span)]

/-- All of a document except its path. -/
def ofDocument (d : Document) : Datum :=
  .table (optionalEntry "file" .text d.file ++ optionalEntry "namespace" .text d.nameSpace ++
    [("text", .text d.text)] ++ nonEmptyEntry "types" ofTypeDecl d.types ++
    nonEmptyEntry "expressions" ofExpression d.expressions ++
    nonEmptyEntry "invocations" ofInvocation d.invocations ++
    nonEmptyEntry "diagnostics" ofHostDiagnostic d.diagnostics)

end Datum
end CaseUnion
