import CaseUnion.Proofs.DefinitionLookup
import CaseUnion.Proofs.ReportedInitializations

/-!
# The order of loaded documents

Which declarations a reference means does not depend on the order of the documents, although their
ids do (`sameDefinitions_of_perm`). So the same expressions are forbidden in every order, and as
reports are sorted by source name and span, they stand at the same places (`check_perm`).
-/

namespace CaseUnion

/-- The name of the source and the span that a failure points at, if it has both. -/
def Failure.place? (f : Failure) : Option (String × Span) :=
  f.source?.bind fun source => f.span.map fun span => (source.name, span)

namespace Compilation

/-- Two compilations have the same declarations under every key. -/
def SameDefinitions (c c' : Compilation) : Prop :=
  ∀ key decl, (∃ e ∈ c.entries, e.key = key ∧ e.decl = decl) ↔
    ∃ e ∈ c'.entries, e.key = key ∧ e.decl = decl

section
variable {c c' : Compilation} {documents documents' : List Document} {s : Settings}

/-- A declaration is listed under the key of its path. -/
theorem exists_mem_entries_iff {key : String} {decl : TypeDecl} :
    (∃ e ∈ (ofDocuments documents).entries, e.key = key ∧ e.decl = decl) ↔
      ∃ d ∈ documents, ∃ chain ∈ d.types.flatMap (TypeDecl.chains []),
        keyFrom (d.nameSpace.getD "") chain = key ∧ chain.getLast? = some decl := by
  have hlisted (k : Nat) (chain : List TypeDecl) : (k, chain) ∈ listing documents ↔
      ∃ d, documents[k]? = some d ∧ chain ∈ d.types.flatMap (TypeDecl.chains []) := by
    simp only [listing, List.mem_flatMap, List.mem_map, Prod.exists,
      List.mk_mem_zipIdx_iff_getElem?, Prod.mk.injEq]
    constructor
    · rintro ⟨d, k', hd, chain', hchain, rfl, rfl⟩
      exact ⟨d, hd, hchain⟩
    · rintro ⟨d, hd, hchain⟩
      exact ⟨d, k, hd, chain, hchain, rfl, rfl⟩
  constructor
  · rintro ⟨e, he, rfl, rfl⟩
    have hmem : (e.document, e.chain) ∈ listing documents := by
      rw [← entries_eq_listing]
      exact List.mem_map_of_mem he
    obtain ⟨d, hd, hchain⟩ := (hlisted _ _).1 hmem
    exact ⟨d, List.mem_of_getElem? hd, e.chain, hchain, (key_eq_keyFrom he hd).symm,
      List.getLast?_concat⟩
  · rintro ⟨d, hd, chain, hchain, rfl, hlast⟩
    obtain ⟨k, hk⟩ := List.mem_iff_getElem?.1 hd
    have hmem := (hlisted k chain).2 ⟨d, hk, hchain⟩
    rw [← entries_eq_listing, List.mem_map] at hmem
    obtain ⟨e, he, heq⟩ := hmem
    obtain ⟨rfl, rfl⟩ := Prod.mk.inj heq
    refine ⟨e, he, key_eq_keyFrom he hk, ?_⟩
    rw [Entry.chain, List.getLast?_concat] at hlast
    exact Option.some.inj hlast

theorem sameDefinitions_of_perm (h : documents.Perm documents') :
    SameDefinitions (ofDocuments documents) (ofDocuments documents') := by
  intro key decl
  rw [exists_mem_entries_iff, exists_mem_entries_iff]
  simp only [h.mem_iff]

theorem exists_mem_idsOf_iff {key : String} {P : TypeDecl → Prop} :
    (∃ id ∈ c.idsOf key, ∃ e, c.entryOf? id = some e ∧ P e.decl) ↔
      ∃ decl, (∃ e ∈ c.entries, e.key = key ∧ e.decl = decl) ∧ P decl := by
  constructor
  · rintro ⟨id, hid, e, he, hP⟩
    obtain ⟨e', he', hkey⟩ := mem_idsOf_iff.1 hid
    cases he.symm.trans he'
    exact ⟨e.decl, ⟨e, List.mem_of_getElem? he, hkey, rfl⟩, hP⟩
  · rintro ⟨_, ⟨e, he, hkey, rfl⟩, hP⟩
    obtain ⟨id, hid⟩ := List.mem_iff_getElem?.1 he
    exact ⟨id, mem_idsOf_iff.2 ⟨e, hid, hkey⟩, e, hid, hP⟩

namespace SameDefinitions

variable (h : SameDefinitions c c')
include h

theorem exists_mem_idsOf_iff (key : String) (P : TypeDecl → Prop) :
    (∃ id ∈ c.idsOf key, ∃ e, c.entryOf? id = some e ∧ P e.decl) ↔
      ∃ id ∈ c'.idsOf key, ∃ e, c'.entryOf? id = some e ∧ P e.decl := by
  simp only [Compilation.exists_mem_idsOf_iff, h key]

theorem isEmpty_idsOf (key : String) : (c.idsOf key).isEmpty = (c'.idsOf key).isEmpty := by
  have hsome (c : Compilation) : (∃ id ∈ c.idsOf key, ∃ e, c.entryOf? id = some e ∧ True) ↔
      ¬ (c.idsOf key).isEmpty := by
    constructor
    · rintro ⟨id, hid, -⟩ hempty
      rw [List.isEmpty_iff.1 hempty] at hid
      cases hid
    · intro hne
      obtain ⟨id, hid⟩ := List.exists_mem_of_ne_nil _ (by simpa using hne)
      obtain ⟨e, he, -⟩ := mem_idsOf_iff.1 hid
      exact ⟨id, hid, e, he, trivial⟩
  rw [Bool.eq_iff_iff, ← not_iff_not, ← hsome, ← hsome]
  exact h.exists_mem_idsOf_iff key fun _ => True

/-- A reference means declarations with the same properties in both. -/
theorem exists_mem_declarationsOf_iff (type : TypeRef) (nameSpace : Option String)
    (P : TypeDecl → Prop) :
    (∃ id ∈ c.declarationsOf type nameSpace, ∃ e, c.entryOf? id = some e ∧ P e.decl) ↔
      ∃ id ∈ c'.declarationsOf type nameSpace, ∃ e, c'.entryOf? id = some e ∧ P e.decl := by
  rw [declarationsOf, declarationsOf]
  cases type.definitionKey? with
  | none => simp
  | some key =>
    cases nameSpace with
    | none => exact h.exists_mem_idsOf_iff key P
    | some outer =>
      dsimp only
      rw [h.isEmpty_idsOf]
      split
      · exact h.exists_mem_idsOf_iff key P
      · exact h.exists_mem_idsOf_iff _ P

theorem isSome_guarded? (type : TypeRef) (nameSpace : Option String) :
    (c.guarded? s type nameSpace).isSome = (c'.guarded? s type nameSpace).isSome := by
  rw [Bool.eq_iff_iff, isSome_guarded?_iff, isSome_guarded?_iff]
  exact h.exists_mem_declarationsOf_iff type nameSpace fun decl =>
    ∃ eligible, s.eligible? decl = some eligible ∧
      eligible.marker.arguments.get? "AllowDefault" ≠ some (.flag true)

end SameDefinitions

/-! ### Places of reports -/

def Finding.place (f : Finding) : String × Span := (f.sourceName, f.span)

/-- The order of places: by source name, then by span. -/
def PlacePrecedes (p q : String × Span) : Prop := p.1 < q.1 ∨ p.1 = q.1 ∧ p.2.precedes q.2

theorem PlacePrecedes.antisymm {p q : String × Span} (hpq : PlacePrecedes p q)
    (hqp : PlacePrecedes q p) : p = q := by
  rcases hpq with hlt | ⟨hname, hspan⟩
  · rcases hqp with hgt | ⟨hname, -⟩
    · exact absurd (String.lt_trans hlt hgt) (String.lt_irrefl _)
    · exact absurd hlt (hname ▸ String.lt_irrefl _)
  · rcases hqp with hgt | ⟨-, hspan'⟩
    · exact absurd hgt (hname ▸ String.lt_irrefl _)
    · exact Prod.ext hname (Span.precedes_antisymm hspan hspan')

/-- Whether an expression of a document is a forbidden initialization. -/
def forbids (c : Compilation) (s : Settings) (d : Document) (e : Expression) : Bool :=
  e.type.any fun type => (c.guarded? s type d.nameSpace).isSome

/-- The places of the forbidden initializations of a document. -/
def placesIn (c : Compilation) (s : Settings) (d : Document) : List (String × Span) :=
  if s.isGenerated d.sourceName then []
  else (d.expressions.filter (c.forbids s d)).map fun e => (d.sourceName, e.span)

theorem isSome_initialization? (position : Nat) (d : Document) (e : Expression) :
    (c.initialization? s position d e).isSome = c.forbids s d e := by
  rw [Bool.eq_iff_iff, isSome_initialization?_iff, forbids, Option.any_eq_true]

theorem map_place_findingsIn (position : Nat) (d : Document) :
    (c.findingsIn s position d).map Finding.place = c.placesIn s d := by
  rw [findingsIn, placesIn]
  split
  · rfl
  · induction d.expressions with
    | nil => rfl
    | cons e rest ih =>
      have hforbids := isSome_initialization? (c := c) (s := s) position d e
      cases hreport : c.initialization? s position d e with
      | none =>
        rw [hreport, Option.isSome_none] at hforbids
        rw [List.filterMap_cons_none (by rw [hreport]; rfl), ih,
          List.filter_cons_of_neg (by simp [← hforbids])]
      | some failure =>
        rw [hreport, Option.isSome_some] at hforbids
        rw [List.filterMap_cons_some (by rw [hreport]; rfl), List.map_cons, ih,
          List.filter_cons_of_pos hforbids.symm]
        rfl

theorem placesIn_congr (h : SameDefinitions c c') (d : Document) :
    c.placesIn s d = c'.placesIn s d := by
  have hforbids : c.forbids s d = c'.forbids s d := by
    funext e
    simp only [forbids, h.isSome_guarded?]
  rw [placesIn, placesIn, hforbids]

theorem perm_place_findings (c : Compilation) (s : Settings) :
    ((c.findings s).map Finding.place).Perm (c.documents.flatMap (c.placesIn s)) := by
  refine ((List.mergeSort_perm _ _).map _).trans (List.Perm.of_eq ?_)
  conv_rhs => rw [← List.zipIdx_map_fst 0 c.documents, List.flatMap_map]
  rw [List.map_flatMap]
  simp only [map_place_findingsIn]

theorem pairwise_place_findings (c : Compilation) (s : Settings) :
    ((c.findings s).map Finding.place).Pairwise PlacePrecedes := by
  rw [List.pairwise_map]
  refine (List.pairwise_mergeSort Finding.precedes_trans Finding.precedes_total _).imp fun h => ?_
  simpa [Finding.precedes, PlacePrecedes, Finding.place] using h

/-- Sorted places are determined by the places that there are. -/
theorem map_place_findings_eq_of_perm (h : documents.Perm documents') :
    ((ofDocuments documents).findings s).map Finding.place =
      ((ofDocuments documents').findings s).map Finding.place := by
  refine List.Perm.eq_of_pairwise (fun _ _ _ _ => PlacePrecedes.antisymm)
    (pairwise_place_findings _ s) (pairwise_place_findings _ s) ?_
  have hsame := sameDefinitions_of_perm h
  refine (perm_place_findings _ s).trans (List.Perm.trans ?_ (perm_place_findings _ s).symm)
  rw [funext (placesIn_congr hsame)]
  exact h.flatMap_right _

theorem place?_of_mem_findings {f : Finding} (hf : f ∈ (ofDocuments documents).findings s) :
    f.failure.place? = some f.place := by
  rw [findings_eq_mergeSort, List.mem_mergeSort] at hf
  obtain ⟨⟨x, failure⟩, hx, rfl⟩ := List.mem_map.1 hf
  obtain ⟨hall, hreport⟩ := mem_reported_iff.1 hx
  have hby := reportedBy_of_report? hall hreport
  rw [Failure.place?, finding, hby.source, hby.span]
  rfl

theorem map_place?_check : ((ofDocuments documents).check s).map Failure.place? =
    (((ofDocuments documents).findings s).map Finding.place).map some := by
  rw [check, List.map_map, List.map_map]
  exact List.map_congr_left fun _ => place?_of_mem_findings

/-- Every report has a place, and in whatever order documents are loaded, the reports stand at the
same places in the same order. -/
theorem check_perm (documents documents' : List Document) (s : Settings)
    (h : documents.Perm documents') :
    ∃ places : List (String × Span),
      ((ofDocuments documents).check s).map Failure.place? = places.map some ∧
        ((ofDocuments documents').check s).map Failure.place? = places.map some := by
  refine ⟨_, map_place?_check, ?_⟩
  rw [map_place?_check, map_place_findings_eq_of_perm h]

end

/-- A declaration of `Shape` whose marker says whether a default is allowed. -/
def shapeDeclaration (allowsDefault : Bool) : TypeDecl :=
  .marked "Shape" [] [{ name := "A" }] ⟨[("AllowDefault", .flag allowsDefault)], by simp⟩

/-- Two parts of one source, each with a declaration of `Shape`. -/
def splitSource : List Document :=
  [{ path := "first.json", file := some "Shapes.cs", types := [shapeDeclaration true],
     expressions := [⟨.objectCreation, some (.simple "Shape"), ⟨5, 9⟩⟩] },
    { path := "second.json", file := some "Shapes.cs", types := [shapeDeclaration false],
      expressions := [⟨.objectCreation, some (.simple "Shape"), ⟨5, 9⟩⟩,
        ⟨.defaultExpression, some (.simple "Shape"), ⟨0, 4⟩⟩] }]

theorem check_perm_splitSource :
    splitSource.Perm splitSource.reverse ∧ ∃ places,
      ((ofDocuments splitSource).check {}).map Failure.place? = places.map some ∧
        ((ofDocuments splitSource.reverse).check {}).map Failure.place? = places.map some ∧
        places = [("Shapes.cs", ⟨0, 4⟩), ("Shapes.cs", ⟨5, 9⟩), ("Shapes.cs", ⟨5, 9⟩)] := by
  have hperm := (List.reverse_perm splitSource).symm
  obtain ⟨places, hplaces, hreverse⟩ := check_perm splitSource splitSource.reverse {} hperm
  refine ⟨hperm, places, hplaces, hreverse, ?_⟩
  rw [map_place?_check] at hplaces
  have hfindings : ((ofDocuments splitSource).findings {}).map Finding.place = places :=
    List.map_injective_iff.2 (fun _ _ => Option.some.inj) hplaces
  have hfound : (ofDocuments splitSource).documents.flatMap ((ofDocuments splitSource).placesIn {}) =
      [("Shapes.cs", ⟨5, 9⟩), ("Shapes.cs", ⟨5, 9⟩), ("Shapes.cs", ⟨0, 4⟩)] := by
    decide +kernel
  have hsorted := perm_place_findings (ofDocuments splitSource) {}
  rw [hfindings, hfound] at hsorted
  have hpairwise := pairwise_place_findings (ofDocuments splitSource) {}
  rw [hfindings] at hpairwise
  refine List.Perm.eq_of_pairwise (fun _ _ _ _ => PlacePrecedes.antisymm) hpairwise ?_
    (hsorted.trans (by decide))
  simp [PlacePrecedes, Span.precedes]

end Compilation
end CaseUnion
