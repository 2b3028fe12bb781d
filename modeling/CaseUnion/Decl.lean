import CaseUnion.Span
import CaseUnion.TypeRef

/-!
# Declarations

A declared type has a header and members; members are methods or further types, so declarations
nest to any depth.
-/

namespace CaseUnion

inductive TypeKind where
  | structType | classType | interfaceType
  deriving DecidableEq, Repr, Inhabited

namespace TypeKind

def keyword : TypeKind → String
  | structType => "struct"
  | classType => "class"
  | interfaceType => "interface"

def all : List TypeKind := [structType, classType, interfaceType]

end TypeKind

/-- Where a type may be used: anywhere, in its assembly, in its family of derived types, in its
owner, or in a combination of assembly and family. -/
inductive Accessibility where
  | anywhere | assembly | family | owner | familyOrAssembly | familyAndAssembly
  deriving DecidableEq, Repr, Inhabited

namespace Accessibility

def keyword : Accessibility → String
  | anywhere => "public"
  | assembly => "internal"
  | family => "protected"
  | owner => "private"
  | familyOrAssembly => "protected internal"
  | familyAndAssembly => "private protected"

def all : List Accessibility :=
  [anywhere, assembly, family, owner, familyOrAssembly, familyAndAssembly]

end Accessibility

/-- The modifiers that matter when a type is opened again. -/
structure Modifiers where
  isStatic : Bool := false
  isReadonly : Bool := false
  isPartial : Bool := false
  deriving DecidableEq, Repr, Inhabited

namespace Modifiers

/-- Sets the modifier that a word stands for; fails with the word if there is none. -/
def add (m : Modifiers) (word : String) : Except String Modifiers :=
  if word = "partial" then .ok { m with isPartial := true }
  else if word = "readonly" then .ok { m with isReadonly := true }
  else if word = "static" then .ok { m with isStatic := true }
  else .error word

/-- Reads a list of words, repeats allowed; fails with the first unknown word. -/
def ofWords (words : List String) : Except String Modifiers := words.foldlM add {}

def unknownWordMessage (word : String) : String := s!"unknown modifier '{word}'"

/-- The modifiers as words, in the order in which a declaration writes them. -/
def words (m : Modifiers) : List String :=
  (if m.isStatic then ["static"] else []) ++
  (if m.isReadonly then ["readonly"] else []) ++
  (if m.isPartial then ["partial"] else [])

theorem ofWords_words (m : Modifiers) : ofWords m.words = .ok m := by
  obtain ⟨s, r, p⟩ := m
  cases s <;> cases r <;> cases p <;> rfl

end Modifiers

inductive AttributeValue where
  | flag (value : Bool)
  | number (value : Int)
  | text (value : String)
  deriving DecidableEq, Repr

/-- The named arguments of an attribute, sorted by name and each name once. -/
structure AttributeArguments where
  entries : List (String × AttributeValue)
  sorted : entries.Pairwise fun a b => a.1 < b.1
  deriving DecidableEq, Repr

namespace AttributeArguments

def empty : AttributeArguments := ⟨[], .nil⟩

instance : Inhabited AttributeArguments := ⟨empty⟩

/-- Puts an entry at its place in the order; the value of a known name is replaced. -/
def place (name : String) (value : AttributeValue) :
    List (String × AttributeValue) → List (String × AttributeValue)
  | [] => [(name, value)]
  | (n, v) :: rest =>
    if name < n then (name, value) :: (n, v) :: rest
    else if name = n then (name, value) :: rest
    else (n, v) :: place name value rest

theorem mem_place {name : String} {value : AttributeValue}
    {entries : List (String × AttributeValue)}
    {e : String × AttributeValue} (h : e ∈ place name value entries) :
    e.1 = name ∨ e ∈ entries := by
  induction entries with
  | nil => simp_all [place]
  | cons entry rest ih =>
    obtain ⟨n, v⟩ := entry
    simp only [place] at h
    split at h
    · rcases List.mem_cons.1 h with rfl | h
      · exact .inl rfl
      · exact .inr h
    · split at h
      · rcases List.mem_cons.1 h with rfl | h
        · exact .inl rfl
        · exact .inr (List.mem_cons_of_mem _ h)
      · rcases List.mem_cons.1 h with rfl | h
        · exact .inr List.mem_cons_self
        · exact (ih h).imp id (List.mem_cons_of_mem _)

theorem sorted_place (name : String) (value : AttributeValue)
    {entries : List (String × AttributeValue)}
    (h : entries.Pairwise fun a b => a.1 < b.1) :
    (place name value entries).Pairwise fun a b => a.1 < b.1 := by
  induction entries with
  | nil => simp [place]
  | cons entry rest ih =>
    obtain ⟨n, v⟩ := entry
    obtain ⟨hfirst, hrest⟩ := List.pairwise_cons.1 h
    simp only [place]
    split
    · rename_i hlt
      refine List.pairwise_cons.2 ⟨?_, h⟩
      intro e he
      rcases List.mem_cons.1 he with rfl | he
      · exact hlt
      · exact String.lt_trans hlt (hfirst e he)
    · split
      · rename_i heq
        subst heq
        exact List.pairwise_cons.2 ⟨hfirst, hrest⟩
      · rename_i hnlt hne
        refine List.pairwise_cons.2 ⟨?_, ih hrest⟩
        intro e he
        rcases mem_place he with he | he
        · rw [he]
          apply Decidable.byContradiction
          intro hnot
          exact hne (String.le_antisymm (String.not_lt.1 hnot) (String.not_lt.1 hnlt))
        · exact hfirst e he

def insert (a : AttributeArguments) (name : String) (value : AttributeValue) :
    AttributeArguments :=
  ⟨place name value a.entries, sorted_place name value a.sorted⟩

/-- Reads entries in order; of a repeated name the last value stays. -/
def ofList (entries : List (String × AttributeValue)) : AttributeArguments :=
  entries.foldl (fun a (name, value) => a.insert name value) empty

def get? (a : AttributeArguments) (name : String) : Option AttributeValue :=
  (a.entries.find? fun (n, _) => n == name).map (·.2)

end AttributeArguments

structure Attribute where
  name : String
  arguments : AttributeArguments := .empty
  deriving DecidableEq, Repr

namespace Attribute

def withoutEnding (ending text : List Char) : List Char :=
  if ending.isSuffixOf text then text.take (text.length - ending.length) else text

def lastSegment (text : List Char) : List Char :=
  (text.reverse.takeWhile (· != '.')).reverse

/-- The written name, without its qualification, matches a name with or without the conventional
ending. -/
def isNamed (a : Attribute) (name : String) : Bool :=
  let ending := "Attribute".toList
  withoutEnding ending (lastSegment a.name.toList) == withoutEnding ending name.toList

def flag? (a : Attribute) (name : String) : Option Bool :=
  match a.arguments.get? name with
  | some (.flag value) => some value
  | _ => none

end Attribute

/-- A declared parameter. It has no type where the host could not bind one. -/
structure Parameter where
  name : String
  type : Option TypeRef
  deriving Repr

structure Method where
  name : String
  returns : TypeRef := .void
  parameters : List Parameter := []
  span : Option Span := none
  deriving Repr

structure TypeHeader where
  name : String
  kind : TypeKind
  accessibility : Accessibility := .assembly
  modifiers : Modifiers := {}
  typeParameters : List String := []
  attributes : List Attribute := []
  span : Option Span := none
  deriving Repr

mutual

structure TypeDecl where
  header : TypeHeader
  members : List Member

inductive Member where
  | type (decl : TypeDecl)
  | method (decl : Method)

end

deriving instance Repr for TypeDecl, Member

namespace TypeDecl

def name (d : TypeDecl) : String := d.header.name
def kind (d : TypeDecl) : TypeKind := d.header.kind
def typeParameters (d : TypeDecl) : List String := d.header.typeParameters
def arity (d : TypeDecl) : Nat := d.typeParameters.length

/-- The first attribute that answers to a name. -/
def attribute? (d : TypeDecl) (name : String) : Option Attribute :=
  d.header.attributes.find? (·.isNamed name)

def nestedTypes (d : TypeDecl) : List TypeDecl :=
  d.members.filterMap fun
    | .type decl => some decl
    | .method _ => none

def methods (d : TypeDecl) : List Method :=
  d.members.filterMap fun
    | .method decl => some decl
    | .type _ => none

end TypeDecl
end CaseUnion
