import CaseUnion.Proofs.CaseLists

/-!
# Extracted unions

A union that `Settings.extract` returns is described by its declaration and the declarations around
it (`extract_eq_some_iff`). No two of its cases share a name (`nodup_names_of_extract`), nor do two
parameters of a case (`nodup_parameter_names_of_extract`). `TypeDecl.marked` declares a union with
the default settings.
-/

namespace CaseUnion

/-- A partial struct with the default marker around a list of cases. -/
def TypeDecl.marked (name : String) (typeParameters : List String) (cases : List Method)
    (arguments : AttributeArguments := .empty) : TypeDecl where
  header :=
    { name := name, kind := .structType, modifiers := { isPartial := true }
      typeParameters := typeParameters, attributes := [⟨"DiscriminatedUnion", arguments⟩] }
  members := [.type ⟨{ name := "Cases", kind := .interfaceType }, cases.map .method⟩]

namespace Settings

variable {s : Settings} {d : Document} {e : Entry} {u : UnionType}

theorem extract_eq_some_iff :
    s.extract d e = .ok (some u) ↔
      ∃ eligible cases, s.eligible? e.decl = some eligible ∧
        readCases (Descriptor.ofEntry e d.nameSpace).qualified e.scope [] eligible.caseMethods =
          .ok cases ∧
        u = ⟨e.decl.name, .ofEntry e d.nameSpace, cases, eligible.allowDefault⟩ := by
  rw [extract]
  cases heligible : s.eligible? e.decl with
  | none => simp
  | some eligible =>
    cases hcases : readCases (Descriptor.ofEntry e d.nameSpace).qualified e.scope []
        eligible.caseMethods with
    | error offence => simp [hcases]
    | ok cases =>
      simp only [hcases, Except.ok.injEq, Option.some.injEq]
      constructor
      · rintro rfl
        exact ⟨eligible, cases, rfl, hcases, rfl⟩
      · rintro ⟨_, cases', rfl, hcases', rfl⟩
        cases hcases.symm.trans hcases'
        rfl

theorem nodup_names_of_extract (h : s.extract d e = .ok (some u)) :
    (u.cases.map (·.name)).Nodup := by
  obtain ⟨_, cases, _, hread, rfl⟩ := extract_eq_some_iff.1 h
  obtain ⟨hproper, hcases⟩ := areCases_of_readCases hread
  exact UnionCase.names_of_standsFor hcases ▸ hproper.distinct

theorem nodup_parameter_names_of_extract (h : s.extract d e = .ok (some u)) {k : UnionCase}
    (hk : k ∈ u.cases) : (k.parameters.map (·.name)).Nodup := by
  obtain ⟨_, cases, _, hread, rfl⟩ := extract_eq_some_iff.1 h
  obtain ⟨hproper, hcases⟩ := areCases_of_readCases hread
  obtain ⟨m, hm, hstands⟩ := UnionCase.exists_of_mem_cases hcases hk
  exact CaseParameter.names_of_standsFor hstands.parameters ▸ (hproper.parameters m hm).distinct

end Settings

end CaseUnion
