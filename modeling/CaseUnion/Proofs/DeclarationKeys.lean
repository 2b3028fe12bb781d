import CaseUnion.Proofs.CollectedResults
import CaseUnion.Proofs.EscapedNames
import CaseUnion.Proofs.ExtractedUnions

/-!
# Keys of declarations

The key of an entry and the escaped path of its descriptor are built from the namespace and the same
declarations, from the outermost to the declaration itself (`Place.Lists`). All unions that are kept
have different keys (`exists_kept`). Where escaping confuses no names the escaped path determines the
key (`key_of_escapedPath`), so it is different for all unions as well.
-/

namespace CaseUnion

mutual

/-- The headers of a declaration and of those inside it. -/
def TypeDecl.headers : TypeDecl → List TypeHeader
  | ⟨header, members⟩ => header :: Member.allHeaders members

def Member.allHeaders : List Member → List TypeHeader
  | [] => []
  | .method _ :: rest => Member.allHeaders rest
  | .type decl :: rest => decl.headers ++ Member.allHeaders rest

end

namespace Document

def headers (d : Document) : List TypeHeader := d.types.flatMap (·.headers)

/-- The namespace is a dotted host identifier, and declarations and type parameters have host
identifiers as names. -/
structure HasIdentifiers (d : Document) : Prop where
  nameSpace : ∀ n ∈ d.nameSpace, Text.IsDotted n.toList
  headers : ∀ header ∈ d.headers, header.HasIdentifiers

instance (d : Document) : Decidable d.HasIdentifiers :=
  decidable_of_iff ((∀ n ∈ d.nameSpace, Text.IsDotted n.toList) ∧
      ∀ header ∈ d.headers, header.HasIdentifiers)
    ⟨fun h => ⟨h.1, h.2⟩, fun h => ⟨h.nameSpace, h.headers⟩⟩

/-- Escaping confuses no names of the document. -/
structure IsPlain (d : Document) : Prop where
  nameSpace : ∀ part ∈ Descriptor.nameSpaceParts d.nameSpace, part.getLast? ≠ some '_'
  headers : ∀ header ∈ d.headers, header.IsPlain

instance (d : Document) : Decidable d.IsPlain :=
  decidable_of_iff ((∀ part ∈ Descriptor.nameSpaceParts d.nameSpace, part.getLast? ≠ some '_') ∧
      ∀ header ∈ d.headers, header.IsPlain)
    ⟨fun h => ⟨h.1, h.2⟩, fun h => ⟨h.nameSpace, h.headers⟩⟩

end Document

/-- The key of the last of declarations that stand inside each other, outermost first. -/
def keyFrom (path : String) (decls : List TypeDecl) : String :=
  decls.foldl (fun path t => innerKey path t.header) path

/-- An entry listed from a place on stands there, with only the given headers between. -/
structure Place.Lists (p : Place) (headers : List TypeHeader) (e : Entry) : Prop where
  document : e.document = p.document
  inner : ∃ inner, e.enclosing ++ [e.decl] = p.enclosing ++ inner ∧
    (∀ t ∈ inner, t.header ∈ headers) ∧ e.key = keyFrom p.path inner

theorem Place.Lists.mono {p q : Place} {headers more : List TypeHeader} {e : Entry}
    (h : p.Lists headers e) (hdocument : q.document = p.document)
    (henclosing : q.enclosing = p.enclosing) (hpath : q.path = p.path)
    (hsubset : ∀ header ∈ headers, header ∈ more) : q.Lists more e := by
  obtain ⟨hdoc, inner, hinner, hheaders, hkey⟩ := h
  refine ⟨hdoc.trans hdocument.symm, inner, ?_, fun t ht => hsubset _ (hheaders t ht), ?_⟩
  · rw [henclosing, hinner]
  · rw [hpath, hkey]

namespace Entry

mutual

theorem lists_of_mem_ofDecl {e : Entry} :
    ∀ (p : Place) (decl : TypeDecl), e ∈ ofDecl p decl → p.Lists decl.headers e
  | p, ⟨header, members⟩, h => by
    rw [ofDecl] at h
    rcases List.mem_cons.1 h with rfl | h
    · exact ⟨rfl, [⟨header, members⟩], rfl, by simp [TypeDecl.headers], rfl⟩
    · obtain ⟨hdocument, inner, hinner, hheaders, hkey⟩ := lists_of_mem_ofMembers _ members h
      refine ⟨hdocument, ⟨header, members⟩ :: inner, ?_, ?_, hkey⟩
      · rw [hinner, List.append_assoc]
        rfl
      · intro t ht
        rcases List.mem_cons.1 ht with rfl | ht
        · exact List.mem_cons_self
        · exact List.mem_cons_of_mem _ (hheaders t ht)

theorem lists_of_mem_ofMembers {e : Entry} :
    ∀ (p : Place) (members : List Member), e ∈ ofMembers p members →
      p.Lists (Member.allHeaders members) e
  | p, [], h => by
    rw [ofMembers] at h
    cases h
  | p, .method _ :: rest, h => by
    rw [ofMembers] at h
    exact lists_of_mem_ofMembers p rest h
  | p, .type decl :: rest, h => by
    rw [ofMembers] at h
    rcases List.mem_append.1 h with h | h
    · exact (lists_of_mem_ofDecl p decl h).mono rfl rfl rfl fun _ => List.mem_append_left _
    · exact (lists_of_mem_ofMembers _ rest h).mono rfl rfl rfl fun _ => List.mem_append_right _

end

theorem lists_of_mem_ofDecls {p : Place} {e : Entry} {decls : List TypeDecl}
    (h : e ∈ ofDecls p decls) : p.Lists (decls.flatMap (·.headers)) e := by
  induction decls generalizing p with
  | nil =>
    rw [ofDecls] at h
    cases h
  | cons decl rest ih =>
    rw [ofDecls] at h
    rw [List.flatMap_cons]
    rcases List.mem_append.1 h with h | h
    · exact (lists_of_mem_ofDecl p decl h).mono rfl rfl rfl fun _ => List.mem_append_left _
    · exact (ih h).mono rfl rfl rfl fun _ => List.mem_append_right _

theorem exists_of_mem_ofDocuments {position next : Nat} {documents : List Document} {e : Entry}
    (h : e ∈ ofDocuments position next documents) :
    ∃ k d start, documents[k]? = some d ∧
      Place.Lists ⟨position + k, start, none, [], d.nameSpace.getD ""⟩ d.headers e := by
  induction documents generalizing position next with
  | nil =>
    rw [ofDocuments] at h
    cases h
  | cons d rest ih =>
    rw [ofDocuments] at h
    rcases List.mem_append.1 h with h | h
    · exact ⟨0, d, next, rfl, lists_of_mem_ofDecls h⟩
    · obtain ⟨k, d', start, hk, hlists⟩ := ih h
      refine ⟨k + 1, d', start, hk, ?_⟩
      rwa [Nat.add_assoc, Nat.add_comm 1 k] at hlists

end Entry

theorem intercalate_concat {α : Type} {sep : α} {parts : List (List α)} (h : parts ≠ [])
    (last : List α) :
    [sep].intercalate (parts ++ [last]) = [sep].intercalate parts ++ sep :: last := by
  induction parts with
  | nil => exact absurd rfl h
  | cons part rest ih =>
    cases rest with
    | nil => simp
    | cons next rest =>
      have hrest := ih (List.cons_ne_nil next rest)
      simp only [List.cons_append, List.intercalate_cons_cons] at hrest ⊢
      rw [hrest]
      simp

def TypeDecl.keyComponent (t : TypeDecl) : List Char :=
  (TypeRef.keyComponent t.name t.typeParameters.length).toList

theorem keyComponent_ne_nil {t : TypeDecl} (h : t.name.toList ≠ []) : t.keyComponent ≠ [] := by
  rw [TypeDecl.keyComponent, TypeRef.keyComponent]
  split
  · exact h
  · simp [toString, h]

theorem toList_innerKey {path : String} {parts : List (List Char)} (t : TypeDecl)
    (hpath : path.toList = ['.'].intercalate parts) (hempty : path.isEmpty ↔ parts = []) :
    (innerKey path t.header).toList = ['.'].intercalate (parts ++ [t.keyComponent]) := by
  by_cases hparts : parts = []
  · rw [innerKey, if_pos (hempty.2 hparts), hparts, List.nil_append, List.intercalate_singleton]
    rfl
  · rw [innerKey, if_neg (fun h => hparts (hempty.1 h)), intercalate_concat hparts, ← hpath]
    simp [toString, TypeDecl.keyComponent, TypeDecl.name, TypeDecl.typeParameters]

theorem toList_keyFrom {path : String} {parts : List (List Char)} {decls : List TypeDecl}
    (hpath : path.toList = ['.'].intercalate parts) (hempty : path.isEmpty ↔ parts = [])
    (h : ∀ t ∈ decls, t.name.toList ≠ []) :
    (keyFrom path decls).toList = ['.'].intercalate (parts ++ decls.map (·.keyComponent)) := by
  induction decls generalizing path parts with
  | nil => simpa [keyFrom] using hpath
  | cons t rest ih =>
    have hkey := toList_innerKey t hpath hempty
    have hne : ¬ (innerKey path t.header).isEmpty := by
      intro hnil
      have hcomponent := keyComponent_ne_nil (h t List.mem_cons_self)
      rw [String.isEmpty_iff.1 hnil] at hkey
      by_cases hparts : parts = []
      · rw [hparts, List.nil_append, List.intercalate_singleton] at hkey
        exact hcomponent hkey.symm
      · rw [intercalate_concat hparts] at hkey
        simp at hkey
    have hrest : (keyFrom (innerKey path t.header) rest).toList =
        ['.'].intercalate (parts ++ [t.keyComponent] ++ rest.map (·.keyComponent)) :=
      ih hkey (by simp [hne]) fun other hother => h other (List.mem_cons_of_mem t hother)
    rw [keyFrom, List.foldl_cons, ← keyFrom, hrest, List.map_cons, List.append_assoc]
    rfl

theorem toList_nameSpace (nameSpace : Option String) :
    (nameSpace.getD "").toList = ['.'].intercalate (Descriptor.nameSpaceParts nameSpace) := by
  cases nameSpace with
  | none => rfl
  | some n =>
    rw [Descriptor.nameSpaceParts, List.intercalate_splitOn]
    rfl

theorem isEmpty_nameSpace_iff {nameSpace : Option String} (h : nameSpace ≠ some "") :
    (nameSpace.getD "").isEmpty ↔ Descriptor.nameSpaceParts nameSpace = [] := by
  cases nameSpace with
  | none => simp [Descriptor.nameSpaceParts]
  | some n =>
    have hne : n ≠ "" := fun hn => h (congrArg some hn)
    simp [Descriptor.nameSpaceParts, hne]

/-- Where escaping confuses nothing, the escaped path of a declaration determines its key. -/
theorem key_of_escapedPath {e : Entry} {d : Document} (hnames : d.HasIdentifiers)
    (hplain : d.IsPlain) (h : ∀ t ∈ e.enclosing ++ [e.decl], t.header ∈ d.headers) :
    (keyFrom (d.nameSpace.getD "") (e.enclosing ++ [e.decl])).toList =
      ['.'].intercalate
        ((Descriptor.ofEntry e d.nameSpace).escapedPath.map Descriptor.keyPart) := by
  have hempty : (d.nameSpace.getD "").isEmpty ↔ Descriptor.nameSpaceParts d.nameSpace = [] := by
    refine isEmpty_nameSpace_iff fun hn => ?_
    have hpart := hnames.nameSpace "" hn [] (by simp)
    exact hpart.ne_nil rfl
  have hparts : (Descriptor.nameSpaceParts d.nameSpace).map Descriptor.keyPart =
      Descriptor.nameSpaceParts d.nameSpace := by
    refine (List.map_congr_left fun part hpart => ?_).trans (List.map_id _)
    exact if_neg (hplain.nameSpace part hpart)
  have hcomponents : (e.enclosing ++ [e.decl]).map (·.keyComponent) =
      ((e.enclosing ++ [e.decl]).map fun t =>
        Descriptor.escapedName t.name t.typeParameters).map Descriptor.keyPart := by
    rw [List.map_map]
    apply List.map_congr_left
    intro t ht
    exact (Descriptor.keyPart_escapedName (hplain.headers _ (h t ht))).symm
  rw [Descriptor.escapedPath_ofEntry, List.map_append, hparts, ← hcomponents]
  exact toList_keyFrom (toList_nameSpace d.nameSpace) hempty fun t ht =>
    (hnames.headers _ (h t ht)).name.ne_nil

namespace Extraction

/-- What is kept are unions with different keys. -/
theorem exists_kept (results : List (String × Except Failure (Option UnionType))) :
    ∃ kept : List (String × UnionType), (collect [] results).unions = kept.map (·.2) ∧
      (kept.map (·.1)).Nodup ∧ ∀ x ∈ kept, (x.1, .ok (some x.2)) ∈ results := by
  obtain ⟨kept, hunions, hkept⟩ := exists_leading_collect [] results
  refine ⟨kept, hunions, nodup_keys_of_leads hkept, fun x hx => ?_⟩
  obtain ⟨i, hleads⟩ := hkept.mem_iff.1 hx
  exact List.mem_of_getElem? hleads.result

end Extraction

/-- A declaration of a document as a union is described, with its key. -/
structure UnionType.Declared (u : UnionType) (key : String) (d : Document) (e : Entry) : Prop where
  descriptor : u.descriptor = .ofEntry e d.nameSpace
  key : key = keyFrom (d.nameSpace.getD "") (e.enclosing ++ [e.decl])
  headers : ∀ t ∈ e.enclosing ++ [e.decl], t.header ∈ d.headers

namespace Compilation

variable {documents : List Document} {s : Settings}

theorem exists_declared_of_mem_extractEach {key : String} {u : UnionType}
    (h : (key, .ok (some u)) ∈ (ofDocuments documents).extractEach s) :
    ∃ d ∈ documents, ∃ e, u.Declared key d e := by
  obtain ⟨e, he, hresult⟩ := List.mem_filterMap.1 h
  obtain ⟨k, d, _, hk, hdocument, inner, hinner, hheaders, hkey⟩ :=
    Entry.exists_of_mem_ofDocuments he
  simp only [Nat.zero_add] at hdocument
  have hof : (ofDocuments documents).documentOf? e = some d := by
    rw [documentOf?, hdocument]
    exact hk
  rw [hof] at hresult
  simp only [Option.map_some, Option.some.injEq, Prod.mk.injEq] at hresult
  obtain ⟨rfl, hextract⟩ := hresult
  obtain ⟨_, _, _, _, rfl⟩ := Settings.extract_eq_some_iff.1 hextract
  rw [List.nil_append] at hinner
  subst hinner
  exact ⟨d, List.mem_of_getElem? hk, e, rfl, hkey, hheaders⟩

theorem exists_keys (documents : List Document) (s : Settings) :
    ∃ kept : List (String × UnionType),
      ((ofDocuments documents).extractAll s).unions = kept.map (·.2) ∧ (kept.map (·.1)).Nodup ∧
        ∀ x ∈ kept, ∃ d ∈ documents, ∃ e, x.2.Declared x.1 d e := by
  obtain ⟨kept, hunions, hnodup, hkept⟩ :=
    Extraction.exists_kept ((ofDocuments documents).extractEach s)
  exact ⟨kept, hunions, hnodup,
    fun x hx => exists_declared_of_mem_extractEach (hkept x hx)⟩

end Compilation
end CaseUnion
