import CaseUnion.Proofs.DefinitionUnions
import CaseUnion.Proofs.TypeRendering

/-!
# Looking definitions up

The path of a declaration has the identifiers of its namespace and then the name and the number of
type parameters of each declaration from the outermost to itself. Keys are written from paths
(`key_keyFrom`), and where names have neither dots nor marks of an arity a key belongs to one path
only (`DefinitionPath.key_injective`). The ids of an index are the positions in the list of all
declarations (`entries_eq_listing`), so a look-up by key finds the declarations with a path.
-/

namespace CaseUnion

/-- At least one character, and neither the dot between the names of a path nor the mark in front
of an arity. -/
def Text.IsPathName (cs : List Char) : Prop := cs ≠ [] ∧ '.' ∉ cs ∧ '\x60' ∉ cs

instance : DecidablePred Text.IsPathName :=
  fun cs => inferInstanceAs (Decidable (cs ≠ [] ∧ '.' ∉ cs ∧ '\x60' ∉ cs))

/-! ### Keys of paths -/

namespace TypeRef

theorem toList_keyComponent (name : String) {arity : Nat} (h : arity ≠ 0) :
    (keyComponent name arity).toList = name.toList ++ '\x60' :: Nat.toDigits 10 arity := by
  rw [keyComponent, if_neg h]
  simp [ToString.toString]

theorem mem_keyComponent {name : String} {arity : Nat} {c : Char}
    (h : c ∈ (keyComponent name arity).toList) : c ∈ name.toList ∨ c = '\x60' ∨ c.isDigit := by
  by_cases harity : arity = 0
  · rw [keyComponent, if_pos harity] at h
    exact .inl h
  · rw [toList_keyComponent name harity, List.mem_append, List.mem_cons] at h
    exact h.imp_right (Or.imp_right fun hdigit =>
      Nat.isDigit_of_mem_toDigits (by decide) (by decide) hdigit)

theorem keyComponent_injective {name name' : String} {arity arity' : Nat}
    (hname : '\x60' ∉ name.toList) (hname' : '\x60' ∉ name'.toList)
    (h : keyComponent name arity = keyComponent name' arity') : name = name' ∧ arity = arity' := by
  have hchars := congrArg String.toList h
  by_cases harity : arity = 0 <;> by_cases harity' : arity' = 0
  · rw [keyComponent, keyComponent, if_pos harity, if_pos harity'] at h
    exact ⟨h, harity.trans harity'.symm⟩
  · rw [keyComponent, if_pos harity, toList_keyComponent name' harity'] at hchars
    exact absurd (by rw [hchars]; simp) hname
  · rw [toList_keyComponent name harity, keyComponent, if_pos harity'] at hchars
    exact absurd (by rw [← hchars]; simp) hname'
  · rw [toList_keyComponent name harity, toList_keyComponent name' harity'] at hchars
    have hdigits : '\x60' ∉ Nat.toDigits 10 arity := fun hmem =>
      absurd (Nat.isDigit_of_mem_toDigits (by decide) (by decide) hmem) (by decide)
    obtain ⟨hnames, -, hdigits⟩ := (List.append_cons_inj_of_notMem hname hdigits).1 hchars
    exact ⟨String.toList_inj.1 hnames, toDigits_injective hdigits⟩

end TypeRef

/-- Names with numbers of type parameters, outermost first. -/
abbrev DefinitionPath := List (String × Nat)

namespace DefinitionPath

/-- The identifiers of a namespace. -/
def ofNameSpace (nameSpace : Option String) : DefinitionPath :=
  (Descriptor.nameSpaceParts nameSpace).map fun part => (String.ofList part, 0)

def ofDecls (decls : List TypeDecl) : DefinitionPath := decls.map fun t => (t.name, t.arity)

/-- The path as an index key. -/
def key (path : DefinitionPath) : String :=
  ".".intercalate (path.map fun c => TypeRef.keyComponent c.1 c.2)

def IsNamed (path : DefinitionPath) : Prop := ∀ c ∈ path, Text.IsPathName c.1.toList

theorem IsNamed.append {p q : DefinitionPath} (hp : p.IsNamed) (hq : q.IsNamed) :
    (p ++ q).IsNamed :=
  List.forall_mem_append.2 ⟨hp, hq⟩

theorem splitOn_key {path : DefinitionPath} (h : path.IsNamed) (hne : path ≠ []) :
    path.key.toList.splitOn '.' =
      path.map fun c => (TypeRef.keyComponent c.1 c.2).toList := by
  rw [key, String.toList_intercalate, List.map_map]
  refine List.splitOn_intercalate '.' ?_ (by simpa using hne)
  intro part hpart hdot
  obtain ⟨c, hc, rfl⟩ := List.mem_map.1 hpart
  rcases TypeRef.mem_keyComponent hdot with hname | hmark | hdigit
  · exact (h c hc).2.1 hname
  · cases hmark
  · cases hdigit

/-- A key belongs to one path. -/
theorem key_injective {p q : DefinitionPath} (hp : p.IsNamed) (hq : q.IsNamed) (hpne : p ≠ [])
    (hqne : q ≠ []) (h : p.key = q.key) : p = q := by
  have hparts := congrArg (fun key => key.toList.splitOn '.') h
  simp only [splitOn_key hp hpne, splitOn_key hq hqne] at hparts
  clear h hpne hqne
  induction p generalizing q with
  | nil => exact (List.map_eq_nil_iff.1 hparts.symm).symm
  | cons c rest ih =>
    obtain ⟨c', rest', rfl, hcomponent, hrest⟩ := List.map_eq_cons_iff.1 hparts.symm
    obtain ⟨hc, hp⟩ := List.forall_mem_cons.1 hp
    obtain ⟨hc', hq⟩ := List.forall_mem_cons.1 hq
    have hname := TypeRef.keyComponent_injective hc.2.2 hc'.2.2
      (String.toList_inj.1 hcomponent.symm)
    rw [Prod.ext hname.1 hname.2, ih hp hq hrest.symm]

theorem key_append {p q : DefinitionPath} (hp : p ≠ []) (hq : q ≠ []) :
    (p ++ q).key = p.key ++ "." ++ q.key := by
  rw [key, List.map_append,
    String.intercalate_append_of_ne_nil (by simpa using hp) (by simpa using hq)]
  rfl

theorem toList_ofNameSpace (nameSpace : Option String) :
    (ofNameSpace nameSpace).map (fun c => (TypeRef.keyComponent c.1 c.2).toList) =
      Descriptor.nameSpaceParts nameSpace := by
  rw [ofNameSpace, List.map_map]
  exact List.map_id'' (fun _ => String.toList_ofList) _

theorem key_ofNameSpace (outer : String) : (ofNameSpace (some outer)).key = outer := by
  rw [← String.toList_inj, key, String.toList_intercalate, List.map_map]
  exact (congrArg _ (toList_ofNameSpace _)).trans (toList_nameSpace (some outer)).symm

theorem ofNameSpace_ne_nil (outer : String) : ofNameSpace (some outer) ≠ [] := by
  simp [ofNameSpace, Descriptor.nameSpaceParts]

/-- The key of the last of declarations that stand inside each other is written from their path. -/
theorem key_keyFrom {nameSpace : Option String} {decls : List TypeDecl}
    (hnameSpace : (ofNameSpace nameSpace).IsNamed)
    (hdecls : ∀ t ∈ decls, Text.IsPathName t.name.toList) :
    keyFrom (nameSpace.getD "") decls = (ofNameSpace nameSpace ++ ofDecls decls).key := by
  have hempty : nameSpace ≠ some "" := by
    rintro rfl
    exact (hnameSpace ("", 0) (by decide)).1 rfl
  rw [← String.toList_inj, toList_keyFrom (toList_nameSpace nameSpace)
    (isEmpty_nameSpace_iff hempty) fun t ht => (hdecls t ht).1, key, String.toList_intercalate,
    List.map_map, List.map_append, ← toList_ofNameSpace]
  congr 2
  rw [ofDecls, List.map_map]
  rfl

end DefinitionPath

namespace TypeRef

/-- The names and numbers of arguments of the segments. Arrays and nullable types have no path. -/
def path? : TypeRef → Option DefinitionPath
  | named segments => some (segments.map fun s => (s.name, s.arguments.length))
  | _ => none

theorem definitionKey?_eq (t : TypeRef) : t.definitionKey? = t.path?.map DefinitionPath.key := by
  cases t with
  | named segments =>
    rw [definitionKey?, path?, Option.map_some, DefinitionPath.key, List.map_map]
    rfl
  | array element => rfl
  | nullable inner => rfl

theorem isPathName_of_isName {first : Char} {rest : List Char} (h : IsName first rest) :
    Text.IsPathName (first :: rest) := by
  have hall : ['.', '\x60'].all fun c => !isNameStart c && !isNamePart c := by decide +kernel
  have hnot : ∀ c ∈ ['.', '\x60'], c ∉ first :: rest := by
    intro c hc hmem
    obtain ⟨hstart, hpart⟩ : isNameStart c = false ∧ isNamePart c = false := by
      simpa using List.all_eq_true.1 hall c hc
    rcases List.mem_cons.1 hmem with rfl | hmem
    · exact absurd h.1 (by rw [hstart]; decide)
    · exact absurd (h.2 c hmem) (by rw [hpart]; decide)
  exact ⟨List.cons_ne_nil _ _, hnot _ (by decide), hnot _ (by decide)⟩

theorem isNamed_of_path? {t : TypeRef} {path : DefinitionPath} (ht : t.WellFormed)
    (h : t.path? = some path) : path.IsNamed ∧ path ≠ [] := by
  cases ht with
  | named hne hsegments =>
    cases h
    refine ⟨?_, by simpa using hne⟩
    intro c hc
    obtain ⟨s, hs, rfl⟩ := List.mem_map.1 hc
    cases hsegments s hs with
    | mk hname _ =>
      rw [TypeSegment.name, String.toList_ofList]
      exact isPathName_of_isName hname
  | array _ => cases h
  | nullable _ => cases h

theorem definitionKey?_eq_iff {t u : TypeRef} (ht : t.WellFormed) (hu : u.WellFormed) :
    t.definitionKey? = u.definitionKey? ↔ t.path? = u.path? := by
  rw [definitionKey?_eq, definitionKey?_eq]
  refine ⟨fun h => ?_, congrArg _⟩
  cases hp : t.path? with
  | none =>
    rw [hp] at h
    exact (Option.map_eq_none_iff.1 h.symm).symm
  | some p =>
    rw [hp] at h
    obtain ⟨q, hq, hkey⟩ := Option.map_eq_some_iff.1 h.symm
    obtain ⟨hpnamed, hpne⟩ := isNamed_of_path? ht hp
    obtain ⟨hqnamed, hqne⟩ := isNamed_of_path? hu hq
    rw [hq, DefinitionPath.key_injective hqnamed hpnamed hqne hpne hkey]

end TypeRef

/-! ### The list of all declarations -/

mutual

/-- The declarations of a tree, each as the declarations from the outermost to itself. A
declaration stands before those inside it. -/
def TypeDecl.chains (outer : List TypeDecl) : TypeDecl → List (List TypeDecl)
  | ⟨header, members⟩ =>
    let own := outer ++ [⟨header, members⟩]
    own :: Member.allChains own members

def Member.allChains (outer : List TypeDecl) : List Member → List (List TypeDecl)
  | [] => []
  | .method _ :: rest => Member.allChains outer rest
  | .type decl :: rest => decl.chains outer ++ Member.allChains outer rest

end

/-- The declarations of all documents in order, each with the position of its document. -/
def listing (documents : List Document) : List (Nat × List TypeDecl) :=
  documents.zipIdx.flatMap fun (d, k) => (d.types.flatMap (TypeDecl.chains [])).map (k, ·)

/-- The position in the list and the path of a declaration. -/
def Declares (documents : List Document) (id : Nat) (path : DefinitionPath) : Prop :=
  ∃ k d chain, (listing documents)[id]? = some (k, chain) ∧ documents[k]? = some d ∧
    path = .ofNameSpace d.nameSpace ++ .ofDecls chain

theorem Declares.unique {documents : List Document} {id : Nat} {p q : DefinitionPath}
    (hp : Declares documents id p) (hq : Declares documents id q) : p = q := by
  obtain ⟨k, d, chain, hat, hd, rfl⟩ := hp
  obtain ⟨k', d', chain', hat', hd', rfl⟩ := hq
  cases hat.symm.trans hat'
  cases hd.symm.trans hd'
  rfl

namespace Entry

/-- The declarations from the outermost to the one of the entry. -/
def chain (e : Entry) : List TypeDecl := e.enclosing ++ [e.decl]

mutual

theorem chains_ofDecl : ∀ (p : Place) (decl : TypeDecl),
    (ofDecl p decl).map (fun e => (e.document, e.chain)) =
      (decl.chains p.enclosing).map (p.document, ·)
  | p, ⟨header, members⟩ => by
    rw [ofDecl, TypeDecl.chains, List.map_cons, List.map_cons, chains_ofMembers]
    rfl

theorem chains_ofMembers : ∀ (p : Place) (members : List Member),
    (ofMembers p members).map (fun e => (e.document, e.chain)) =
      (Member.allChains p.enclosing members).map (p.document, ·)
  | p, [] => by rw [ofMembers, Member.allChains, List.map_nil, List.map_nil]
  | p, .method _ :: rest => by rw [ofMembers, Member.allChains, chains_ofMembers]
  | p, .type decl :: rest => by
    rw [ofMembers, Member.allChains, List.map_append, List.map_append, chains_ofDecl,
      chains_ofMembers]

end

theorem chains_ofDecls (p : Place) (decls : List TypeDecl) :
    (ofDecls p decls).map (fun e => (e.document, e.chain)) =
      (decls.flatMap (TypeDecl.chains p.enclosing)).map (p.document, ·) := by
  induction decls generalizing p with
  | nil => rw [ofDecls, List.flatMap_nil, List.map_nil, List.map_nil]
  | cons decl rest ih =>
    rw [ofDecls, List.flatMap_cons, List.map_append, List.map_append, chains_ofDecl, ih]

theorem chains_ofDocuments (position next : Nat) (documents : List Document) :
    (ofDocuments position next documents).map (fun e => (e.document, e.chain)) =
      (documents.zipIdx position).flatMap fun (d, k) =>
        (d.types.flatMap (TypeDecl.chains [])).map (k, ·) := by
  induction documents generalizing position next with
  | nil => rw [ofDocuments, List.zipIdx_nil, List.flatMap_nil, List.map_nil]
  | cons d rest ih =>
    rw [ofDocuments, List.zipIdx_cons, List.flatMap_cons, List.map_append, chains_ofDecls, ih]

end Entry

namespace Compilation

theorem entries_eq_listing (documents : List Document) :
    (ofDocuments documents).entries.map (fun e => (e.document, e.chain)) = listing documents :=
  Entry.chains_ofDocuments 0 0 documents

theorem mem_idsOf_iff {c : Compilation} {key : String} {id : Nat} :
    id ∈ c.idsOf key ↔ ∃ e, c.entryOf? id = some e ∧ e.key = key := by
  simp [idsOf, entryOf?, List.mem_zipIdx_iff_getElem?]

theorem pairwise_idsOf (c : Compilation) (key : String) : (c.idsOf key).Pairwise (· < ·) := by
  have hsub : (c.idsOf key).Sublist (List.range' 0 c.entries.length) := by
    rw [← List.zipIdx_map_snd]
    exact List.filter_sublist.map _
  exact List.Pairwise.sublist hsub List.pairwise_lt_range'

end Compilation

/-- The namespace is a dotted name, and the names of declarations are names of a path. -/
structure Document.HasPathNames (d : Document) : Prop where
  nameSpace : (DefinitionPath.ofNameSpace d.nameSpace).IsNamed
  headers : ∀ header ∈ d.headers, Text.IsPathName header.name.toList

instance (d : Document) : Decidable d.HasPathNames :=
  decidable_of_iff ((∀ c ∈ DefinitionPath.ofNameSpace d.nameSpace, Text.IsPathName c.1.toList) ∧
      ∀ header ∈ d.headers, Text.IsPathName header.name.toList)
    ⟨fun h => ⟨h.1, h.2⟩, fun h => ⟨h.nameSpace, h.headers⟩⟩

namespace Compilation

variable {documents : List Document}

theorem pairwise_declarationsOf (c : Compilation) (type : TypeRef) (nameSpace : Option String) :
    (c.declarationsOf type nameSpace).Pairwise (· < ·) := by
  rw [declarationsOf]
  split
  · exact List.Pairwise.nil
  · split
    · exact c.pairwise_idsOf _
    · dsimp only
      split <;> exact c.pairwise_idsOf _

/-- Every id has a path, and the key of its declaration is written from it. -/
theorem exists_path_of_entryOf? (h : ∀ d ∈ documents, d.HasPathNames) {id : Nat} {e : Entry}
    (he : (ofDocuments documents).entryOf? id = some e) :
    ∃ path : DefinitionPath, Declares documents id path ∧ path.IsNamed ∧ path ≠ [] ∧
      e.key = path.key := by
  obtain ⟨k, d, _, hk, hdocument, chain, hchain, hheaders, hkey⟩ :=
    Entry.exists_of_mem_ofDocuments (List.mem_of_getElem? he)
  simp only [Nat.zero_add] at hdocument
  have hd := h d (List.mem_of_getElem? hk)
  have hdecls : ∀ t ∈ chain, Text.IsPathName t.name.toList :=
    fun t ht => hd.headers _ (hheaders t ht)
  have hat : (listing documents)[id]? = some (k, chain) := by
    rw [← entries_eq_listing, List.getElem?_map, ← entryOf?, he, Option.map_some, Entry.chain,
      hchain, hdocument]
    rfl
  refine ⟨_, ⟨k, d, chain, hat, hk, rfl⟩, ?_, ?_, ?_⟩
  · refine hd.nameSpace.append fun c hc => ?_
    obtain ⟨t, ht, rfl⟩ := List.mem_map.1 hc
    exact hdecls t ht
  · have hlast : chain ≠ [] := by
      rintro rfl
      simp at hchain
    simp [DefinitionPath.ofDecls, hlast]
  · rw [hkey, DefinitionPath.key_keyFrom hd.nameSpace hdecls]

theorem mem_idsOf_key_iff (h : ∀ d ∈ documents, d.HasPathNames) {id : Nat} {path : DefinitionPath}
    (hpath : path.IsNamed) (hne : path ≠ []) :
    id ∈ (ofDocuments documents).idsOf path.key ↔ Declares documents id path := by
  rw [mem_idsOf_iff]
  constructor
  · rintro ⟨e, he, hkey⟩
    obtain ⟨path', hdeclares, hnamed, hne', hkey'⟩ := exists_path_of_entryOf? h he
    cases DefinitionPath.key_injective hnamed hpath hne' hne (hkey'.symm.trans hkey)
    exact hdeclares
  · intro hdeclares
    have ⟨k, d, chain, hat, _⟩ := hdeclares
    rw [← entries_eq_listing, List.getElem?_map, Option.map_eq_some_iff] at hat
    obtain ⟨e, he, -⟩ := hat
    obtain ⟨path', hdeclares', -, -, hkey⟩ := exists_path_of_entryOf? h he
    exact ⟨e, he, by rw [hkey, hdeclares.unique hdeclares']⟩

/-- What a reference means are the declarations with its path in the namespace, if there are any,
and otherwise those with its path alone. -/
theorem mem_declarationsOf_iff (h : ∀ d ∈ documents, d.HasPathNames) {type : TypeRef}
    {nameSpace : Option String} (htype : type.WellFormed)
    (hnameSpace : (DefinitionPath.ofNameSpace nameSpace).IsNamed) {id : Nat} :
    id ∈ (ofDocuments documents).declarationsOf type nameSpace ↔
      ∃ path, type.path? = some path ∧
        (Declares documents id (.ofNameSpace nameSpace ++ path) ∨
          (∀ other, ¬ Declares documents other (.ofNameSpace nameSpace ++ path)) ∧
            Declares documents id path) := by
  rw [declarationsOf, type.definitionKey?_eq]
  cases hpath : type.path? with
  | none => simp
  | some path =>
    obtain ⟨hnamed, hne⟩ := TypeRef.isNamed_of_path? htype hpath
    simp only [Option.map_some, Option.some.injEq, exists_eq_left']
    cases nameSpace with
    | none =>
      have hnone : DefinitionPath.ofNameSpace none ++ path = path := rfl
      rw [hnone]
      dsimp only
      rw [mem_idsOf_key_iff h hnamed hne]
      exact ⟨.inl, fun hdeclares => hdeclares.elim (·) And.right⟩
    | some outer =>
      have hkey : s!"{outer}.{path.key}" =
          (.ofNameSpace (some outer) ++ path : DefinitionPath).key := by
        rw [DefinitionPath.key_append (DefinitionPath.ofNameSpace_ne_nil outer) hne,
          DefinitionPath.key_ofNameSpace]
        rfl
      have hinside (other : Nat) : other ∈ (ofDocuments documents).idsOf s!"{outer}.{path.key}" ↔
          Declares documents other (.ofNameSpace (some outer) ++ path) := by
        rw [hkey]
        exact mem_idsOf_key_iff h (hnameSpace.append hnamed)
          (List.append_ne_nil_of_right_ne_nil _ hne)
      dsimp only
      by_cases hnil : (ofDocuments documents).idsOf s!"{outer}.{path.key}" = []
      · rw [hnil] at hinside
        have hnone (other : Nat) :
            ¬ Declares documents other (.ofNameSpace (some outer) ++ path) :=
          fun hdeclares => List.not_mem_nil ((hinside other).2 hdeclares)
        rw [hnil, List.isEmpty_nil, if_pos rfl, mem_idsOf_key_iff h hnamed hne]
        exact ⟨fun hdeclares => .inr ⟨hnone, hdeclares⟩,
          fun hdeclares => hdeclares.elim (absurd · (hnone id)) And.right⟩
      · rw [if_neg (by simpa using hnil), hinside]
        obtain ⟨other, hother⟩ := List.exists_mem_of_ne_nil _ hnil
        exact ⟨.inl, fun hdeclares =>
          hdeclares.elim (·) fun hnot => absurd ((hinside other).1 hother) (hnot.1 other)⟩

/-- Look-ups go by path: the ids are the positions in the list of all declarations, a look-up finds
those with the path that is meant, in order, and keys tell the paths of references apart. -/
structure FindsByPath (documents : List Document) : Prop where
  ids : (ofDocuments documents).entries.map (fun e => (e.document, e.enclosing ++ [e.decl])) =
    listing documents
  increasing : ∀ type nameSpace,
    ((ofDocuments documents).declarationsOf type nameSpace).Pairwise (· < ·)
  found : ∀ text type nameSpace, TypeRef.parse text = .ok type →
    (DefinitionPath.ofNameSpace nameSpace).IsNamed → ∀ id,
      id ∈ (ofDocuments documents).declarationsOf type nameSpace ↔
        ∃ path, type.path? = some path ∧
          (Declares documents id (.ofNameSpace nameSpace ++ path) ∨
            (∀ other, ¬ Declares documents other (.ofNameSpace nameSpace ++ path)) ∧
              Declares documents id path)
  keys : ∀ text text' type type', TypeRef.parse text = .ok type → TypeRef.parse text' = .ok type' →
    (type.definitionKey? = type'.definitionKey? ↔ type.path? = type'.path?)

/-- Where names are names of a path, look-ups go by path. -/
theorem declarationsOf_finds_path (h : ∀ d ∈ documents, d.HasPathNames) :
    FindsByPath documents := by
  constructor
  case ids => exact entries_eq_listing documents
  case increasing => exact pairwise_declarationsOf _
  case found =>
    exact fun _ _ _ htype hnameSpace _ =>
      mem_declarationsOf_iff h (TypeRef.wellFormed_of_parse htype) hnameSpace
  case keys =>
    exact fun _ _ _ _ htype htype' => TypeRef.definitionKey?_eq_iff
      (TypeRef.wellFormed_of_parse htype) (TypeRef.wellFormed_of_parse htype')

/-- A type outside of namespaces, and one with the same name in a namespace, next to a generic type
that has a type inside. -/
def shadowingDocuments : List Document :=
  [{ path := "shapes.json", types := [⟨{ name := "Shape", kind := .classType }, []⟩] },
    { path := "demo.json"
      nameSpace := some "Demo.Shapes"
      types :=
        [⟨{ name := "Shape", kind := .structType, typeParameters := ["T"] },
          [.type ⟨{ name := "Cases", kind := .interfaceType }, []⟩]⟩,
          ⟨{ name := "Shape", kind := .structType }, []⟩] }]

theorem declarationsOf_finds_path_shadowing :
    (∀ d ∈ shadowingDocuments, d.HasPathNames) ∧ FindsByPath shadowingDocuments :=
  have h : ∀ d ∈ shadowingDocuments, d.HasPathNames := by decide
  ⟨h, declarationsOf_finds_path h⟩

example :
    (ofDocuments shadowingDocuments).declarationsOf (.simple "Shape") (some "Demo.Shapes") = [3] ∧
      (ofDocuments shadowingDocuments).declarationsOf (.simple "Shape") (some "Demo") = [0] := by
  decide +kernel

end Compilation
end CaseUnion
