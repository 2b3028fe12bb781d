import CaseUnion.Document

/-!
# The index of declarations

A compilation lists every declaration of its documents, nested ones included: documents in order,
and each declaration before those inside it. The place in this list is the id of a declaration. Its
key is the path of its namespace and of the declarations around it, with the arity of each.
-/

namespace CaseUnion

structure Entry where
  /-- The position of the document that contains it. -/
  document : Nat
  decl : TypeDecl
  /-- The id of the declaration directly around it. -/
  parent : Option Nat
  /-- The declarations around it, outermost first. -/
  enclosing : List TypeDecl
  key : String
  deriving Repr

/-- The key of a declaration inside a path, where the empty path is none. -/
def innerKey (path : String) (d : TypeHeader) : String :=
  let component := TypeRef.keyComponent d.name d.typeParameters.length
  if path.isEmpty then component else s!"{path}.{component}"

/-- Where a listing stands: the document, the next id, and what is around it. -/
structure Place where
  document : Nat
  next : Nat
  parent : Option Nat
  enclosing : List TypeDecl
  path : String

mutual

def Entry.ofDecl (p : Place) : TypeDecl → List Entry
  | ⟨header, members⟩ =>
    let decl : TypeDecl := ⟨header, members⟩
    let key := innerKey p.path header
    ⟨p.document, decl, p.parent, p.enclosing, key⟩ ::
      Entry.ofMembers ⟨p.document, p.next + 1, some p.next, p.enclosing ++ [decl], key⟩ members

def Entry.ofMembers (p : Place) : List Member → List Entry
  | [] => []
  | .method _ :: rest => Entry.ofMembers p rest
  | .type decl :: rest =>
    let inner := Entry.ofDecl p decl
    inner ++ Entry.ofMembers { p with next := p.next + inner.length } rest

end

namespace Entry

def ofDecls (p : Place) : List TypeDecl → List Entry
  | [] => []
  | decl :: rest =>
    let inner := ofDecl p decl
    inner ++ ofDecls { p with next := p.next + inner.length } rest

def ofDocuments (position next : Nat) : List Document → List Entry
  | [] => []
  | d :: rest =>
    let inner := ofDecls ⟨position, next, none, [], d.nameSpace.getD ""⟩ d.types
    inner ++ ofDocuments (position + 1) (next + inner.length) rest

end Entry

structure Compilation where
  documents : List Document
  entries : List Entry

namespace Compilation

def ofDocuments (documents : List Document) : Compilation :=
  ⟨documents, Entry.ofDocuments 0 0 documents⟩

def entryOf? (c : Compilation) (id : Nat) : Option Entry := c.entries[id]?

def documentOf? (c : Compilation) (e : Entry) : Option Document := c.documents[e.document]?

def idsOf (c : Compilation) (key : String) : List Nat :=
  (c.entries.zipIdx.filter fun (e, _) => e.key == key).map (·.2)

/-- All declarations of the definition that a reference means. A name is looked up in the given
namespace first and then as it is written. -/
def declarationsOf (c : Compilation) (type : TypeRef) (nameSpace : Option String) : List Nat :=
  match type.definitionKey? with
  | none => []
  | some key =>
    match nameSpace with
    | none => c.idsOf key
    | some outer =>
      let inside := c.idsOf s!"{outer}.{key}"
      if inside.isEmpty then c.idsOf key else inside

def lookup (c : Compilation) (type : TypeRef) (nameSpace : Option String) : List (Nat × Entry) :=
  (c.declarationsOf type nameSpace).filterMap fun id => (c.entryOf? id).map (id, ·)

end Compilation
end CaseUnion
