import CaseUnion.Proofs.CaseLists
import CaseUnion.Proofs.DefinitionLookup

/-!
# The union of a declaration

What extraction gives for a declaration is known from the declaration and those around it
(`extract_follows_declaration`): nothing if it is not eligible (`TypeDecl.IsUnion`), the union of
its methods if these are proper cases, and otherwise the first offence among them. `resultAt?` is
the result for the declaration with an id, and `getElem?_extractEach` finds all results in order of
ids.
-/

namespace CaseUnion

/-- The declaration is marked, partial, and a struct or a class, and just one of the types directly
inside it is a case list. Of several markers the first one counts. -/
structure TypeDecl.IsUnion (t : TypeDecl) (s : Settings) (e : Eligible) : Prop where
  marker : ∃ before after, t.header.attributes = before ++ e.marker :: after ∧
    e.marker.isNamed s.marker ∧ ∀ other ∈ before, ¬ other.isNamed s.marker
  isPartial : t.header.modifiers.isPartial
  kind : t.kind = .structType ∨ t.kind = .classType
  caseList : ∃ before after, t.nestedTypes = before ++ e.caseList :: after ∧
    s.isCaseList e.caseList ∧ ∀ other ∈ before ++ after, ¬ s.isCaseList other

/-- Describes a declaration inside others, outermost first. -/
def Descriptor.ofDecl (outer : List TypeDecl) (decl : TypeDecl) (nameSpace : Option String) :
    Descriptor :=
  ofHeader decl.header nameSpace (chain nameSpace [] outer)

namespace Settings

variable {s : Settings} {t : TypeDecl} {e : Eligible}

theorem attribute?_eq_some_iff {name : String} {a : Attribute} :
    t.attribute? name = some a ↔ ∃ before after, t.header.attributes = before ++ a :: after ∧
      a.isNamed name ∧ ∀ other ∈ before, ¬ other.isNamed name := by
  rw [TypeDecl.attribute?, List.find?_eq_some_iff_append]
  simp only [Bool.not_eq_eq_eq_not, Bool.not_true, Bool.not_eq_true]
  constructor
  · rintro ⟨hnamed, before, after, hsplit, hbefore⟩
    exact ⟨before, after, hsplit, hnamed, hbefore⟩
  · rintro ⟨before, after, hsplit, hnamed, hbefore⟩
    exact ⟨hnamed, before, after, hsplit, hbefore⟩

theorem filter_isCaseList_eq_singleton_iff {types : List TypeDecl} {caseList : TypeDecl} :
    types.filter s.isCaseList = [caseList] ↔ ∃ before after, types = before ++ caseList :: after ∧
      s.isCaseList caseList ∧ ∀ other ∈ before ++ after, ¬ s.isCaseList other := by
  simp only [List.filter_eq_cons_iff, List.filter_eq_nil_iff, List.forall_mem_append]
  constructor
  · rintro ⟨before, after, hsplit, hbefore, hcaseList, hafter⟩
    exact ⟨before, after, hsplit, hcaseList, hbefore, hafter⟩
  · rintro ⟨before, after, hsplit, hcaseList, hbefore, hafter⟩
    exact ⟨before, after, hsplit, hbefore, hcaseList, hafter⟩

theorem isOpened_iff : (t.header.modifiers.isPartial && t.kind != .interfaceType) = true ↔
    t.header.modifiers.isPartial ∧ (t.kind = .structType ∨ t.kind = .classType) := by
  cases t.kind <;> simp

theorem eligible?_eq_some_iff_filter : s.eligible? t = some e ↔
    t.attribute? s.marker = some e.marker ∧
      (t.header.modifiers.isPartial && t.kind != .interfaceType) = true ∧
      t.nestedTypes.filter s.isCaseList = [e.caseList] := by
  obtain ⟨marker, caseList⟩ := e
  rw [eligible?]
  cases t.attribute? s.marker with
  | none => simp
  | some found =>
    dsimp only
    split
    · rename_i hopened
      rcases t.nestedTypes.filter s.isCaseList with _ | ⟨first, _ | ⟨second, rest⟩⟩ <;>
        simp [hopened]
    · rename_i hclosed
      simp [hclosed]

theorem eligible?_eq_some_iff : s.eligible? t = some e ↔ t.IsUnion s e := by
  rw [eligible?_eq_some_iff_filter, attribute?_eq_some_iff, isOpened_iff,
    filter_isCaseList_eq_singleton_iff]
  constructor
  · rintro ⟨hmarker, ⟨hpartial, hkind⟩, hcaseList⟩
    exact ⟨hmarker, hpartial, hkind, hcaseList⟩
  · rintro ⟨hmarker, hpartial, hkind, hcaseList⟩
    exact ⟨hmarker, ⟨hpartial, hkind⟩, hcaseList⟩

end Settings

theorem getElem?_filterMap_of_isSome {α β : Type} {f : α → Option β} {l : List α}
    (h : ∀ x ∈ l, (f x).isSome) (i : Nat) : (l.filterMap f)[i]? = l[i]?.bind f := by
  induction l generalizing i with
  | nil => rfl
  | cons x rest ih =>
    obtain ⟨y, hy⟩ := Option.isSome_iff_exists.1 (h x List.mem_cons_self)
    rw [List.filterMap_cons_some hy]
    cases i with
    | zero => exact hy.symm
    | succ i => exact ih (fun z hz => h z (List.mem_cons_of_mem x hz)) i

namespace Compilation

/-- The key of the declaration with an id, and what extraction gives for it. -/
def resultAt? (c : Compilation) (s : Settings) (id : Nat) :
    Option (String × Except Failure (Option UnionType)) :=
  (c.entryOf? id).bind fun e => (c.documentOf? e).map fun d => (e.key, s.extract d e)

theorem exists_documentOf? {documents : List Document} {e : Entry}
    (he : e ∈ (ofDocuments documents).entries) :
    ∃ d, (ofDocuments documents).documentOf? e = some d := by
  obtain ⟨k, d, _, hk, hdocument, _⟩ := Entry.exists_of_mem_ofDocuments he
  rw [Nat.zero_add] at hdocument
  exact ⟨d, by rw [documentOf?, hdocument]; exact hk⟩

/-- The results are those of the ids, in order. -/
theorem getElem?_extractEach (documents : List Document) (s : Settings) (id : Nat) :
    ((ofDocuments documents).extractEach s)[id]? = (ofDocuments documents).resultAt? s id := by
  refine getElem?_filterMap_of_isSome (fun e he => ?_) id
  obtain ⟨d, hd⟩ := exists_documentOf? he
  rw [hd]
  rfl

/-- The declaration that stands in the list of all declarations is the one with its id. -/
theorem exists_entryOf?_of_listing {documents : List Document} {id k : Nat} {d : Document}
    {outer : List TypeDecl} {decl : TypeDecl}
    (hat : (listing documents)[id]? = some (k, outer ++ [decl])) (hd : documents[k]? = some d) :
    ∃ e, (ofDocuments documents).entryOf? id = some e ∧
      (ofDocuments documents).documentOf? e = some d ∧ e.enclosing = outer ∧ e.decl = decl := by
  rw [← entries_eq_listing, List.getElem?_map, Option.map_eq_some_iff] at hat
  obtain ⟨e, he, heq⟩ := hat
  obtain ⟨rfl, hchain⟩ := Prod.mk.inj heq
  obtain ⟨houter, hdecl⟩ := List.append_inj' hchain rfl
  exact ⟨e, he, hd, houter, (List.cons.inj hdecl).1⟩

/-- Let a declaration stand inside others in a document. Extraction gives nothing for it exactly if
it is not eligible. If it is, then proper cases are all kept as they are declared, and otherwise the
first offence is reported. -/
theorem extract_follows_declaration (documents : List Document) (s : Settings) {id k : Nat}
    {d : Document} {outer : List TypeDecl} {decl : TypeDecl}
    (hat : (listing documents)[id]? = some (k, outer ++ [decl])) (hd : documents[k]? = some d) :
    ∃ key result, (ofDocuments documents).resultAt? s id = some (key, result) ∧
      (result = .ok none ↔ ∀ eligible, ¬ decl.IsUnion s eligible) ∧
      ∀ eligible, decl.IsUnion s eligible →
        (AreCases eligible.caseMethods →
          ∃ u, result = .ok (some u) ∧ u.name = decl.name ∧
            u.descriptor = .ofDecl outer decl d.nameSpace ∧
            List.Forall₂ (UnionCase.StandsFor ((outer ++ [decl]).flatMap (·.typeParameters)))
              eligible.caseMethods u.cases ∧
            u.allowDefault = eligible.allowDefault) ∧
        (¬ AreCases eligible.caseMethods →
          ∃ cause span, FirstOffence (Descriptor.ofDecl outer decl d.nameSpace).qualified
              eligible.caseMethods cause span ∧
            result = .error (.context (.plain cause span) (some ⟨d.sourceName, d.text⟩) [])) := by
  obtain ⟨e, he, hdocument, rfl, rfl⟩ := exists_entryOf?_of_listing hat hd
  refine ⟨e.key, s.extract d e, by rw [resultAt?, he, Option.bind_some, hdocument]; rfl, ?_⟩
  cases heligible : s.eligible? e.decl with
  | none =>
    have hnot : ∀ eligible, ¬ e.decl.IsUnion s eligible := by
      intro eligible h
      rw [Settings.eligible?_eq_some_iff.2 h] at heligible
      cases heligible
    rw [Settings.extract, heligible]
    exact ⟨iff_of_true rfl hnot, fun eligible h => absurd h (hnot eligible)⟩
  | some eligible =>
    have hunion := Settings.eligible?_eq_some_iff.1 heligible
    rw [Settings.extract, heligible]
    cases hread : readCases (Descriptor.ofEntry e d.nameSpace).qualified e.scope []
        eligible.caseMethods with
    | error offence =>
      obtain ⟨cause, span⟩ := offence
      have hoffence := firstOffence_of_readCases hread
      simp only [hread]
      refine ⟨iff_of_false (by simp) fun h => h eligible hunion, fun other hother => ?_⟩
      cases heligible.symm.trans (Settings.eligible?_eq_some_iff.2 hother)
      refine ⟨fun hproper => absurd hproper hoffence.not_areCases,
        fun _ => ⟨cause, span, hoffence, ?_⟩⟩
      rw [Failure.located, if_pos hoffence.isLocatable]
      rfl
    | ok cases =>
      obtain ⟨hproper, hcases⟩ := areCases_of_readCases hread
      simp only [hread]
      refine ⟨iff_of_false (by simp) fun h => h eligible hunion, fun other hother => ?_⟩
      cases heligible.symm.trans (Settings.eligible?_eq_some_iff.2 hother)
      exact ⟨fun _ => ⟨_, rfl, rfl, rfl, hcases, rfl⟩, fun hnot => absurd hproper hnot⟩

def pairMethods : List Method :=
  [{ name := "Both",
     parameters := [⟨"t", some (.simple "T")⟩, ⟨"us", some (.array (.simple "U"))⟩] },
    { name := "Count", returns := .simple "int" }, { name := "None" }]

/-- A repeated parameter without a type, in front of a repeated case. -/
def brokenMethods : List Method :=
  [{ name := "A", parameters := [⟨"x", some (.simple "T")⟩, ⟨"x", none⟩], span := some ⟨4, 9⟩ },
    { name := "A" }]

def outerClass : TypeDecl :=
  ⟨{ name := "Outer", kind := .classType, typeParameters := ["T"] },
    [.type (.marked "Pair" ["U"] pairMethods), .type (.marked "Broken" [] brokenMethods)]⟩

def nestedUnions : Document where
  path := "unions.json"
  nameSpace := some "Demo"
  types := [outerClass]

theorem extract_follows_nestedUnions :
    (∃ u, (ofDocuments [nestedUnions]).resultAt? {} 1 = some ("Demo.Outer`1.Pair`1", .ok (some u)) ∧
      List.Forall₂ (UnionCase.StandsFor ["T", "U"])
        (pairMethods.filter (·.returns.isVoid)) u.cases) ∧
      ∃ cause, (ofDocuments [nestedUnions]).resultAt? {} 3 = some ("Demo.Outer`1.Broken",
          .error (.context (.plain cause (some ⟨4, 9⟩)) (some ⟨"unions.json", ""⟩) [])) ∧
        cause.code.text = "DX3" ∧
        FirstOffence "Demo.Outer<T>.Broken" brokenMethods cause (some ⟨4, 9⟩) := by
  obtain ⟨key, result, hresult, -, hunion⟩ :=
    extract_follows_declaration [nestedUnions] {} (show (listing [nestedUnions])[1]? =
      some (0, [outerClass] ++ [.marked "Pair" ["U"] pairMethods]) from rfl) rfl
  obtain ⟨key', result', hresult', -, hbroken⟩ :=
    extract_follows_declaration [nestedUnions] {} (show (listing [nestedUnions])[3]? =
      some (0, [outerClass] ++ [.marked "Broken" [] brokenMethods]) from rfl) rfl
  constructor
  · obtain ⟨hkept, -⟩ := hunion _ (Settings.eligible?_eq_some_iff.1 rfl)
    obtain ⟨u, rfl, -, -, hcases, -⟩ := hkept (by decide)
    obtain rfl : "Demo.Outer`1.Pair`1" = key := congrArg (·.elim "" Prod.fst) hresult
    exact ⟨u, hresult, hcases⟩
  · obtain ⟨-, hreported⟩ := hbroken _ (Settings.eligible?_eq_some_iff.1 rfl)
    obtain ⟨cause, span, hoffence, rfl⟩ := hreported (by decide)
    have hcomputed : (ofDocuments [nestedUnions]).resultAt? {} 3 = some ("Demo.Outer`1.Broken",
        .error (.context (.plain (.duplicateParameter "Demo.Outer<T>.Broken" "A" "x") (some ⟨4, 9⟩))
          (some ⟨"unions.json", ""⟩) [])) := rfl
    cases hresult'.symm.trans hcomputed
    exact ⟨_, hcomputed, rfl, hoffence⟩

end Compilation
end CaseUnion
