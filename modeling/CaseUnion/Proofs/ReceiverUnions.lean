import CaseUnion.Proofs.DefinitionUnions
import CaseUnion.Proofs.OfferedFixes

/-!
# The union of a receiver

A call is completed against the first eligible declaration of the definition that its receiver means
(`Compilation.leading?`), while generation keeps the first declaration that gives a union with cases.
Where the first eligible declaration gives one, both are the same union. Where it is empty or fails,
the unit of a later declaration is emitted, but its calls are not completed
(`fixes_complete_emitted_union`).
-/

namespace CaseUnion

namespace Settings

variable {s : Settings} {d : Document} {e : Entry}

theorem extract_of_not_eligible (h : s.eligible? e.decl = none) : s.extract d e = .ok none := by
  rw [extract, h]

end Settings

/-- The text of the call ends in a closing parenthesis, up to white space. -/
def Document.EndsInParenthesis (d : Document) (call : Invocation) : Prop :=
  ∃ text, d.slice? call.span = some text ∧ (Text.trimEnd text.toList).getLast? = some ')'

theorem exists_completionEdit?_iff {d : Document} {call : Invocation} {arguments : List Argument} :
    (∃ e, completionEdit? d call arguments = some e) ↔ d.EndsInParenthesis call := by
  cases hslice : d.slice? call.span with
  | none => simp [completionEdit?, Document.EndsInParenthesis, hslice]
  | some text =>
    by_cases hlast : (Text.trimEnd text.toList).getLast? = some ')'
    · simp [completionEdit?, Document.EndsInParenthesis, hslice, hlast]
    · simp [completionEdit?, Document.EndsInParenthesis, hslice, hlast]

namespace Compilation

/-- The first eligible declaration of the definition that a reference means. -/
def leading? (c : Compilation) (s : Settings) (receiver : TypeRef) (nameSpace : Option String) :
    Option Entry :=
  ((c.lookup receiver nameSpace).map (·.2)).find? fun e => (s.eligible? e.decl).isSome

/-- The first eligible declaration of the definition that a reference means gives a union with
cases. -/
def LeadsWithCases (c : Compilation) (s : Settings) (receiver : TypeRef)
    (nameSpace : Option String) : Prop :=
  ∃ e home u, c.leading? s receiver nameSpace = some e ∧ c.documentOf? e = some home ∧
    s.extract home e = .ok (some u) ∧ u.cases ≠ []

/-- A declaration of the definition that a reference means is the one that a union describes. -/
def Declares (c : Compilation) (receiver : TypeRef) (nameSpace : Option String) (u : UnionType) :
    Prop :=
  ∃ x ∈ c.lookup receiver nameSpace, ∃ home, c.documentOf? x.2 = some home ∧
    u.descriptor = .ofEntry x.2 home.nameSpace

variable {c : Compilation} {s : Settings} {d : Document} {call : Invocation} {receiver : TypeRef}
  {nameSpace : Option String} {u : UnionType} {documents : List Document}

theorem entries_of_idsOf (c : Compilation) (key : String) :
    ((c.idsOf key).filterMap fun id => (c.entryOf? id).map (id, ·)).map (·.2) =
      c.entries.filter (·.key == key) := by
  have hentries : c.entries.filter (·.key == key) =
      (c.entries.zipIdx.filter (·.1.key == key)).map (·.1) := by
    conv_lhs => rw [← List.zipIdx_map_fst 0 c.entries, List.filter_map]
    rfl
  rw [idsOf, List.filterMap_map, hentries, List.map_filterMap, ← List.filterMap_eq_map]
  apply List.filterMap_congr
  rintro ⟨e, id⟩ hmem
  have hat := List.mk_mem_zipIdx_iff_getElem?.1 (List.mem_of_mem_filter hmem)
  simp [entryOf?, hat]

theorem exists_lookup_eq (c : Compilation) (receiver : TypeRef) (nameSpace : Option String) :
    c.lookup receiver nameSpace = [] ∨
      ∃ key, (c.lookup receiver nameSpace).map (·.2) = c.entries.filter (·.key == key) := by
  rw [lookup, declarationsOf]
  split
  · exact .inl rfl
  · split
    · exact .inr ⟨_, c.entries_of_idsOf _⟩
    · dsimp only
      split
      · exact .inr ⟨_, c.entries_of_idsOf _⟩
      · exact .inr ⟨_, c.entries_of_idsOf _⟩

theorem receiverUnion?_eq_some_iff (hreceiver : call.receiver = some receiver) :
    c.receiverUnion? s d call = some u ↔ ∃ e home, c.leading? s receiver d.nameSpace = some e ∧
      c.documentOf? e = some home ∧ s.extract home e = .ok (some u) := by
  simp only [receiverUnion?, leading?, hreceiver, Option.bind_eq_bind, Option.bind_some,
    List.find?_map, Option.bind_eq_some_iff, Option.map_eq_some_iff, Function.comp_def]
  constructor
  · rintro ⟨x, hfind, home, hhome, h⟩
    refine ⟨x.2, home, ⟨x, hfind, rfl⟩, hhome, ?_⟩
    split at h
    · rename_i union? hextract
      rw [hextract, h]
    · cases h
  · rintro ⟨_, home, ⟨x, hfind, rfl⟩, hhome, hextract⟩
    exact ⟨x, hfind, home, hhome, by rw [hextract]⟩

/-- If the first eligible declaration gives a union with cases, it is the union of the
definition. -/
theorem unionOf?_of_leading? {e : Entry} {home : Document} {key : String}
    (hkey : (c.lookup receiver nameSpace).map (·.2) = c.entries.filter (·.key == key))
    (hleading : c.leading? s receiver nameSpace = some e) (hhome : c.documentOf? e = some home)
    (hextract : s.extract home e = .ok (some u)) (hcases : u.cases ≠ []) :
    c.unionOf? s key = some u := by
  rw [leading?, hkey, List.find?_filter, List.find?_eq_some_iff_append] at hleading
  obtain ⟨he, before, after, hentries, hbefore⟩ := hleading
  simp only [beq_iff_eq, decide_eq_true_eq] at he
  have hfirst : Extraction.keyedUnion? key (e.key, s.extract home e) = some u := by
    rw [Extraction.keyedUnion?_eq_some_iff]
    exact ⟨by rw [he.1, hextract], hcases⟩
  rw [unionOf?, Extraction.unionOf?, extractEach, hentries, List.filterMap_append,
    List.filterMap_cons, hhome, Option.map_some, List.findSome?_append, List.findSome?_cons, hfirst,
    Option.or_eq_some_iff]
  refine .inr ⟨?_, rfl⟩
  -- a declaration in front with the same key is not eligible
  rw [List.findSome?_eq_none_iff]
  intro result hmem
  obtain ⟨other, hother, hresult⟩ := List.mem_filterMap.1 hmem
  obtain ⟨d, _, rfl⟩ := Option.map_eq_some_iff.1 hresult
  cases hunion : Extraction.keyedUnion? key (other.key, s.extract d other) with
  | none => rfl
  | some v =>
    obtain ⟨heq, _⟩ := Extraction.keyedUnion?_eq_some_iff.1 hunion
    obtain ⟨hsame, hextract⟩ := Prod.mk.inj heq
    have hnot := hbefore other hother
    cases heligible : s.eligible? other.decl with
    | none =>
      rw [Settings.extract_of_not_eligible heligible] at hextract
      cases hextract
    | some eligible => simp [hsame, heligible] at hnot

section
variable (hu : u ∈ ((ofDocuments documents).extractAll s).unions)
include hu

theorem unionOf?_of_declares (hdeclares : (ofDocuments documents).Declares receiver nameSpace u) :
    ∃ key, ((ofDocuments documents).lookup receiver nameSpace).map (·.2) =
        (ofDocuments documents).entries.filter (·.key == key) ∧
      (ofDocuments documents).unionOf? s key = some u := by
  obtain ⟨x, hx, home, hhome, hdescriptor⟩ := hdeclares
  rcases (ofDocuments documents).exists_lookup_eq receiver nameSpace with hnil | ⟨key, hkey⟩
  · rw [hnil] at hx
    cases hx
  · have hmem := List.mem_map_of_mem (f := (·.2)) hx
    rw [hkey, List.mem_filter, beq_iff_eq] at hmem
    refine ⟨key, hkey, ?_⟩
    rw [← hmem.2]
    exact unionOf?_of_mem_unions hu hmem.1 hhome hdescriptor

theorem receiverUnion?_eq_emitted_iff (hreceiver : call.receiver = some receiver)
    (hdeclares : (ofDocuments documents).Declares receiver d.nameSpace u) :
    (ofDocuments documents).receiverUnion? s d call = some u ↔
      (ofDocuments documents).LeadsWithCases s receiver d.nameSpace := by
  obtain ⟨key, hkey, hunion⟩ := unionOf?_of_declares hu hdeclares
  rw [receiverUnion?_eq_some_iff hreceiver]
  constructor
  · rintro ⟨e, home, hleading, hhome, hextract⟩
    exact ⟨e, home, u, hleading, hhome, hextract, cases_ne_nil_of_mem_unions hu⟩
  · rintro ⟨e, home, v, hleading, hhome, hextract, hcases⟩
    have hsame := unionOf?_of_leading? hkey hleading hhome hextract hcases
    rw [hunion, Option.some.injEq] at hsame
    exact ⟨e, home, hleading, hhome, hsame ▸ hextract⟩

end

/-- A call without a union with cases to complete it against is not completed. -/
theorem completion?_eq_none_of_not_leads (hreceiver : call.receiver = some receiver)
    (hleads : ¬ c.LeadsWithCases s receiver d.nameSpace) : c.completion? s d call = none := by
  rw [completion?, Option.bind_eq_none_iff]
  intro v hv
  obtain ⟨e, home, hleading, hhome, hextract⟩ := (receiverUnion?_eq_some_iff hreceiver).1 hv
  have hempty : v.cases = [] := by
    by_contra hcases
    exact hleads ⟨e, home, v, hleading, hhome, hextract, hcases⟩
  simp [missingArguments, hempty]

theorem fixFor?_of_callAround? {g : HostDiagnostic} (hid : g.id = s.diagnosticId) {position : Nat}
    (haround : callAround? d g = some (call, position)) :
    c.fixFor? s d g = (c.completion? s d call).map fun x =>
      ⟨"Implement missing union cases.", d.sourceName, position, g, x.1, x.2⟩ := by
  rw [fixFor?_eq, if_pos hid, haround]
  rfl

theorem mem_fixes_resolving_iff {fix : CodeFix} {g : HostDiagnostic} (hg : g ∈ d.diagnostics) :
    fix ∈ c.fixes s d ∧ fix.resolves = g ↔ c.fixFor? s d g = some fix := by
  constructor
  · rintro ⟨hmem, rfl⟩
    obtain ⟨g, _, hfix⟩ := List.mem_filterMap.1 hmem
    rwa [resolves_of_fixFor? hfix]
  · intro hfix
    exact ⟨List.mem_filterMap.2 ⟨g, hg, hfix⟩, resolves_of_fixFor? hfix⟩

theorem exists_completion?_iff (hu : c.receiverUnion? s d call = some u) :
    (∃ x, c.completion? s d call = some x) ↔
      (∃ k ∈ u.cases, ¬ call.Covers u k) ∧ d.EndsInParenthesis call := by
  rw [← missingArguments_ne_nil_iff call (nodup_names_of_receiverUnion? hu), completion?, hu,
    Option.bind_some, ← @exists_completionEdit?_iff d call (missingArguments u call)]
  split
  · rename_i hempty
    simp [List.isEmpty_iff.1 hempty]
  · rename_i hempty
    have hne : missingArguments u call ≠ [] := fun hnil => hempty (List.isEmpty_iff.2 hnil)
    simp [hne, Option.map_eq_some_iff]

/-- Let a union be emitted for the definition that the receiver of a call means. The call is
completed against this union exactly if the first eligible declaration of the definition gives a
union with cases. Then a fix is offered for a diagnostic of the call if it leaves a case uncovered
and ends in a parenthesis, and the fix appends exactly what is uncovered; else none is offered. -/
theorem fixes_complete_emitted_union (documents : List Document) (s : Settings) (d : Document)
    (call : Invocation) (receiver : TypeRef) (u : UnionType)
    (hreceiver : call.receiver = some receiver)
    (hu : u ∈ ((ofDocuments documents).extractAll s).unions)
    (hdeclares : (ofDocuments documents).Declares receiver d.nameSpace u) :
    ((ofDocuments documents).receiverUnion? s d call = some u ↔
        (ofDocuments documents).LeadsWithCases s receiver d.nameSpace) ∧
      ∀ g ∈ d.diagnostics, g.id = s.diagnosticId → ∀ position,
        callAround? d g = some (call, position) →
          ((∃ fix ∈ (ofDocuments documents).fixes s d, fix.resolves = g) ↔
              (ofDocuments documents).LeadsWithCases s receiver d.nameSpace ∧
                (∃ k ∈ u.cases, ¬ call.Covers u k) ∧ d.EndsInParenthesis call) ∧
            ∀ fix ∈ (ofDocuments documents).fixes s d, fix.resolves = g →
              fix.invocation = position ∧ u.FillsIn call fix.appended := by
  have hleads := receiverUnion?_eq_emitted_iff hu hreceiver hdeclares
  refine ⟨hleads, fun g hg hid position haround => ⟨?_, ?_⟩⟩
  · have hoffered : (∃ fix ∈ (ofDocuments documents).fixes s d, fix.resolves = g) ↔
        ∃ x, (ofDocuments documents).completion? s d call = some x := by
      simp only [mem_fixes_resolving_iff hg, fixFor?_of_callAround? hid haround,
        Option.map_eq_some_iff]
      exact ⟨fun ⟨_, x, hx, _⟩ => ⟨x, hx⟩, fun ⟨x, hx⟩ => ⟨_, x, hx, rfl⟩⟩
    rw [hoffered]
    by_cases hcases : (ofDocuments documents).LeadsWithCases s receiver d.nameSpace
    · rw [exists_completion?_iff (hleads.2 hcases)]
      exact (and_iff_right hcases).symm
    · rw [completion?_eq_none_of_not_leads hreceiver hcases]
      simp [hcases]
  · intro fix hmem hresolves
    have hfix := (mem_fixes_resolving_iff hg).1 ⟨hmem, hresolves⟩
    rw [fixFor?_of_callAround? hid haround] at hfix
    obtain ⟨⟨appended, e⟩, hcompletion, rfl⟩ := Option.map_eq_some_iff.1 hfix
    refine ⟨rfl, ?_⟩
    by_cases hcases : (ofDocuments documents).LeadsWithCases s receiver d.nameSpace
    · obtain ⟨v, n, hv, rfl, _⟩ := completion?_eq_some_iff.1 hcompletion
      cases hv.symm.trans (hleads.2 hcases)
      exact fillsIn_missingArguments call (nodup_names_of_receiverUnion? hv)
    · rw [completion?_eq_none_of_not_leads hreceiver hcases] at hcompletion
      cases hcompletion

def emptyCall : Invocation :=
  { callee := "s.Match", method := "Match", receiver := some (.simple "Shape"), span := ⟨0, 9⟩ }

/-- A document that declares the struct `Shape` in several parts, each with a list of cases. -/
def splitShape (parts : List (List String)) : Document where
  path := "shapes.json"
  text := "s.Match()"
  types := parts.map fun names => .marked "Shape" [] (names.map fun name => { name := name })
  invocations := [emptyCall]
  diagnostics := [⟨"CS7036", ⟨0, 7⟩⟩]

def casesFirst : Document := splitShape [["A", "B"], ["C"]]

/-- The first part is emitted, and the call is completed against it. -/
theorem fixes_complete_casesFirst :
    ∃ u, ((ofDocuments [casesFirst]).extractAll {}).unions = [u] ∧
      u.cases.map (·.name) = ["A", "B"] ∧
      (ofDocuments [casesFirst]).receiverUnion? {} casesFirst emptyCall = some u ∧
      ∃ fix ∈ (ofDocuments [casesFirst]).fixes {} casesFirst,
        fix.invocation = 0 ∧ u.FillsIn emptyCall fix.appended := by
  obtain ⟨u, hunions, hdeclares, hnames⟩ :
      ∃ u, ((ofDocuments [casesFirst]).extractAll {}).unions = [u] ∧
        (ofDocuments [casesFirst]).Declares (.simple "Shape") none u ∧
        u.cases.map (·.name) = ["A", "B"] :=
    ⟨_, rfl, ⟨_, List.mem_cons_self, _, rfl, rfl⟩, rfl⟩
  have hu : u ∈ ((ofDocuments [casesFirst]).extractAll {}).unions :=
    hunions ▸ List.mem_singleton_self u
  have hleads : (ofDocuments [casesFirst]).LeadsWithCases {} (.simple "Shape") none :=
    ⟨_, _, _, rfl, rfl, rfl, nofun⟩
  have huncovered : ∃ k ∈ u.cases, ¬ emptyCall.Covers u k := by
    obtain ⟨k, hk⟩ := List.exists_mem_of_ne_nil _ (cases_ne_nil_of_mem_unions hu)
    exact ⟨k, hk, by simp [Invocation.Covers, Invocation.positionalCount, emptyCall]⟩
  obtain ⟨hunion, hfixes⟩ := fixes_complete_emitted_union [casesFirst] {} casesFirst emptyCall
    (.simple "Shape") u rfl hu hdeclares
  obtain ⟨hoffered, happended⟩ := hfixes _ List.mem_cons_self rfl 0 rfl
  obtain ⟨fix, hmem, hresolves⟩ :=
    hoffered.2 ⟨hleads, huncovered, "s.Match()", by decide +kernel, by decide +kernel⟩
  exact ⟨u, hunions, hnames, hunion.2 hleads, fix, hmem, happended fix hmem hresolves⟩

def emptyFirst : Document := splitShape [[], ["A"]]

/-- The first part has no cases, so the second one is emitted, but the call is not completed. -/
theorem fixes_miss_emptyFirst :
    ∃ u ∈ ((ofDocuments [emptyFirst]).extractAll {}).unions, ∃ g ∈ emptyFirst.diagnostics,
      (ofDocuments [emptyFirst]).Declares (.simple "Shape") none u ∧
        g.id = ({} : Settings).diagnosticId ∧
        callAround? emptyFirst g = some (emptyCall, 0) ∧
        (∃ k ∈ u.cases, ¬ emptyCall.Covers u k) ∧ emptyFirst.EndsInParenthesis emptyCall ∧
        (ofDocuments [emptyFirst]).receiverUnion? {} emptyFirst emptyCall ≠ some u ∧
        (ofDocuments [emptyFirst]).fixes {} emptyFirst = [] := by
  refine ⟨_, List.mem_cons_self, _, List.mem_cons_self,
    ⟨_, List.mem_cons_of_mem _ List.mem_cons_self, _, rfl, rfl⟩, rfl, rfl,
    ⟨_, List.mem_cons_self, by simp [Invocation.Covers, Invocation.positionalCount, emptyCall]⟩,
    ⟨"s.Match()", by decide +kernel, by decide +kernel⟩, ?_, rfl⟩
  intro hunion
  have hcases := congrArg (Option.map fun v => v.cases.length) hunion
  revert hcases
  decide +kernel

end Compilation
end CaseUnion
