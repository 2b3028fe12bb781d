import CaseUnion.Proofs.DeclarationKeys

/-!
# The union of a definition

A definition is known by its key and may be declared several times. What extraction keeps of it is
the first union with cases among its declarations (`Extraction.unionOf?`, `mem_unions_collect_iff`).
A descriptor determines the key of the declaration that it describes (`keyFrom_eq_of_ofEntry_eq`).
-/

namespace CaseUnion

namespace Extraction

/-- The union of a result, if it has cases and the key is the given one. -/
def keyedUnion? (key : String) : String × Except Failure (Option UnionType) → Option UnionType
  | (other, .ok (some u)) => if other = key ∧ u.cases ≠ [] then some u else none
  | _ => none

/-- The first union with cases among the results with a key. -/
def unionOf? (key : String) (results : List (String × Except Failure (Option UnionType))) :
    Option UnionType :=
  results.findSome? (keyedUnion? key)

theorem keyedUnion?_eq_some_iff {key : String} {result : String × Except Failure (Option UnionType)}
    {u : UnionType} :
    keyedUnion? key result = some u ↔ result = (key, .ok (some u)) ∧ u.cases ≠ [] := by
  obtain ⟨other, result⟩ := result
  rcases result with failure | _ | v
  · simp [keyedUnion?]
  · simp [keyedUnion?]
  · simp only [keyedUnion?, Option.ite_none_right_eq_some, Option.some.injEq, Prod.mk.injEq,
      Except.ok.injEq]
    constructor
    · rintro ⟨⟨rfl, hcases⟩, rfl⟩
      exact ⟨⟨rfl, rfl⟩, hcases⟩
    · rintro ⟨⟨rfl, rfl⟩, hcases⟩
      exact ⟨⟨rfl, hcases⟩, rfl⟩

theorem exists_of_unionOf? {key : String}
    {results : List (String × Except Failure (Option UnionType))} {u : UnionType}
    (h : unionOf? key results = some u) : (key, .ok (some u)) ∈ results ∧ u.cases ≠ [] := by
  obtain ⟨result, hmem, hresult⟩ := List.exists_of_findSome?_eq_some h
  obtain ⟨rfl, hcases⟩ := keyedUnion?_eq_some_iff.1 hresult
  exact ⟨hmem, hcases⟩

theorem unionOf?_eq_some_iff {key : String}
    {results : List (String × Except Failure (Option UnionType))} {u : UnionType} :
    unionOf? key results = some u ↔ ∃ i, Leads [] results i (key, u) := by
  rw [unionOf?, List.findSome?_eq_some_iff]
  constructor
  · rintro ⟨before, result, after, rfl, hresult, hbefore⟩
    obtain ⟨rfl, hcases⟩ := keyedUnion?_eq_some_iff.1 hresult
    refine ⟨before.length, by simp, hcases, List.not_mem_nil, fun j hj v hv => ?_⟩
    rw [List.getElem?_append_left hj] at hv
    by_contra hne
    have hsome : keyedUnion? key (key, .ok (some v)) = some v :=
      keyedUnion?_eq_some_iff.2 ⟨rfl, hne⟩
    rw [hbefore _ (List.mem_of_getElem? hv)] at hsome
    cases hsome
  · rintro ⟨i, h⟩
    obtain ⟨hlt, hat⟩ := List.getElem?_eq_some_iff.1 h.result
    refine ⟨results.take i, _, results.drop (i + 1), ?_,
      keyedUnion?_eq_some_iff.2 ⟨hat, h.cases_ne_nil⟩, fun result hmem => ?_⟩
    · rw [List.getElem_cons_drop, List.take_append_drop]
    · obtain ⟨j, hj, rfl⟩ := List.mem_take_iff_getElem.1 hmem
      rw [Option.eq_none_iff_forall_ne_some]
      intro v hv
      obtain ⟨heq, hne⟩ := keyedUnion?_eq_some_iff.1 hv
      exact hne (h.first j (by omega) v (heq ▸ List.getElem?_eq_getElem _))

/-- The unions that are kept are those of the definitions. -/
theorem mem_unions_collect_iff {results : List (String × Except Failure (Option UnionType))}
    {u : UnionType} : u ∈ (collect [] results).unions ↔ ∃ key, unionOf? key results = some u := by
  obtain ⟨kept, hunions, hkept⟩ := exists_leading_collect [] results
  simp only [hunions, List.mem_map, hkept.mem_iff, unionOf?_eq_some_iff, Prod.exists,
    exists_eq_right]

end Extraction

theorem Descriptor.headers_chain (nameSpace : Option String) (decls : List TypeDecl)
    (parents : List Descriptor) :
    (chain nameSpace parents decls).map (fun p => (p.name, p.typeParameters)) =
      parents.map (fun p => (p.name, p.typeParameters)) ++
        decls.map fun t => (t.name, t.typeParameters) := by
  induction decls generalizing parents with
  | nil => simp [chain]
  | cons t rest ih =>
    rw [chain, ih, List.map_append, List.append_assoc]
    rfl

theorem keyFrom_congr {path : String} {decls decls' : List TypeDecl}
    (h : (decls.map fun t => (t.name, t.typeParameters)) =
      decls'.map fun t => (t.name, t.typeParameters)) : keyFrom path decls = keyFrom path decls' := by
  induction decls generalizing path decls' with
  | nil =>
    rw [List.map_nil, eq_comm, List.map_eq_nil_iff] at h
    rw [h]
  | cons t rest ih =>
    obtain ⟨t', rest', rfl, hhead, hrest⟩ := List.map_eq_cons_iff.1 h.symm
    obtain ⟨hname, hparameters⟩ := Prod.mk.inj hhead
    have hkey : innerKey path t.header = innerKey path t'.header := by
      simp only [TypeDecl.name, TypeDecl.typeParameters] at hname hparameters
      rw [innerKey, innerKey, hname, hparameters]
    rw [keyFrom, keyFrom, List.foldl_cons, List.foldl_cons, hkey]
    exact ih hrest.symm

/-- Declarations with the same description have the same key. -/
theorem keyFrom_eq_of_ofEntry_eq {e e' : Entry} {nameSpace nameSpace' : Option String}
    (h : Descriptor.ofEntry e nameSpace = .ofEntry e' nameSpace') :
    keyFrom (nameSpace.getD "") (e.enclosing ++ [e.decl]) =
      keyFrom (nameSpace'.getD "") (e'.enclosing ++ [e'.decl]) := by
  have hnameSpace : nameSpace = nameSpace' := congrArg Descriptor.nameSpace h
  have hparents := congrArg Descriptor.parents h
  have hname : e.decl.name = e'.decl.name := congrArg Descriptor.name h
  have hparameters : e.decl.typeParameters = e'.decl.typeParameters :=
    congrArg Descriptor.typeParameters h
  simp only [Descriptor.ofEntry, Descriptor.ofHeader] at hparents
  have henclosing := congrArg (List.map fun p => (p.name, p.typeParameters)) hparents
  rw [Descriptor.headers_chain, Descriptor.headers_chain] at henclosing
  rw [hnameSpace]
  apply keyFrom_congr
  rw [List.map_append, List.map_append, List.map_singleton, List.map_singleton, hname, hparameters]
  exact congrArg (· ++ _) henclosing

namespace Compilation

variable {c : Compilation} {s : Settings} {e : Entry} {d : Document} {u : UnionType}
  {documents : List Document}

/-- The key of a declaration is that of its path in its document. -/
theorem key_eq_keyFrom (he : e ∈ (ofDocuments documents).entries)
    (hd : (ofDocuments documents).documentOf? e = some d) :
    e.key = keyFrom (d.nameSpace.getD "") (e.enclosing ++ [e.decl]) := by
  obtain ⟨k, home, _, hk, hdocument, inner, hinner, _, hkey⟩ := Entry.exists_of_mem_ofDocuments he
  simp only [Nat.zero_add] at hdocument
  rw [documentOf?, hdocument] at hd
  cases hk.symm.trans hd
  rw [hkey, hinner]
  rfl

theorem mem_extractEach_iff {key : String} {result : Except Failure (Option UnionType)} :
    (key, result) ∈ c.extractEach s ↔
      ∃ e ∈ c.entries, ∃ d, c.documentOf? e = some d ∧ e.key = key ∧ s.extract d e = result := by
  simp [extractEach, List.mem_filterMap]

/-- The first union with cases among the declarations of a definition. -/
def unionOf? (c : Compilation) (s : Settings) (key : String) : Option UnionType :=
  Extraction.unionOf? key (c.extractEach s)

theorem mem_unions_extractAll_iff :
    u ∈ (c.extractAll s).unions ↔ ∃ key, c.unionOf? s key = some u := by
  rw [extractAll, Extraction.mem_unions_collect_iff]
  rfl

theorem cases_ne_nil_of_mem_unions (h : u ∈ (c.extractAll s).unions) : u.cases ≠ [] := by
  obtain ⟨key, hkey⟩ := mem_unions_extractAll_iff.1 h
  exact (Extraction.exists_of_unionOf? hkey).2

/-- A union that is kept is the union of every definition with a declaration that it describes. -/
theorem unionOf?_of_mem_unions (hu : u ∈ ((ofDocuments documents).extractAll s).unions)
    (he : e ∈ (ofDocuments documents).entries)
    (hd : (ofDocuments documents).documentOf? e = some d)
    (hdescriptor : u.descriptor = .ofEntry e d.nameSpace) :
    (ofDocuments documents).unionOf? s e.key = some u := by
  obtain ⟨key, hkey⟩ := mem_unions_extractAll_iff.1 hu
  obtain ⟨e', he', d', hd', rfl, hextract⟩ :=
    mem_extractEach_iff.1 (Extraction.exists_of_unionOf? hkey).1
  obtain ⟨_, _, _, _, rfl⟩ := Settings.extract_eq_some_iff.1 hextract
  have hsame := keyFrom_eq_of_ofEntry_eq hdescriptor
  rw [← key_eq_keyFrom he' hd', ← key_eq_keyFrom he hd] at hsame
  rwa [← hsame]

end Compilation
end CaseUnion
