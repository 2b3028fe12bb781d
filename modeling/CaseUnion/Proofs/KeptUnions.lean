import CaseUnion.Proofs.CollectedResults
import CaseUnion.Proofs.DeclaredUnions

/-!
# The unions of a compilation

Of every definition the union of its earliest declaration with cases is kept, and every failure is
(`extractAll_keeps_earliest`). Declarations are named by their ids, the positions in the list of all
declarations, so what is kept stands in the order of documents and declarations.
-/

namespace CaseUnion

namespace Compilation

/-- The declaration with an id gives a union with cases, and none before it with the same key
does. -/
structure KeepsAt (c : Compilation) (s : Settings) (id : Nat) (x : String × UnionType) : Prop where
  result : c.resultAt? s id = some (x.1, .ok (some x.2))
  cases_ne_nil : x.2.cases ≠ []
  first : ∀ other < id, ∀ v, c.resultAt? s other = some (x.1, .ok (some v)) → v.cases = []

/-- Nothing is lost and nothing kept twice: the unions are those of the earliest declarations with
cases, one for each key, and the failures are those of all declarations that fail. -/
structure KeepsEarliest (documents : List Document) (s : Settings) (x : Extraction) : Prop where
  ids : (ofDocuments documents).entries.map (fun e => (e.document, e.enclosing ++ [e.decl])) =
    listing documents
  unions : ∃ kept : List (String × UnionType), x.unions = kept.map (·.2) ∧
    (kept.map (·.1)).Nodup ∧ ByPosition ((ofDocuments documents).KeepsAt s) kept
  represented : ∀ id key u, (ofDocuments documents).resultAt? s id = some (key, .ok (some u)) →
    u.cases ≠ [] → ∃ first ≤ id, ∃ v ∈ x.unions, (ofDocuments documents).KeepsAt s first (key, v)
  failures : ByPosition
    (fun id f => ∃ key, (ofDocuments documents).resultAt? s id = some (key, .error f)) x.failures
  cases_ne_nil : ∀ u ∈ x.unions, u.cases ≠ []
  names : ∀ u ∈ x.unions, (u.cases.map (·.name)).Nodup
  parameters : ∀ u ∈ x.unions, ∀ k ∈ u.cases, (k.parameters.map (·.name)).Nodup

section
variable {c : Compilation} {documents : List Document} {s : Settings}

theorem leads_extractEach_iff {id : Nat} {x : String × UnionType} :
    Extraction.Leads [] ((ofDocuments documents).extractEach s) id x ↔
      (ofDocuments documents).KeepsAt s id x := by
  constructor
  · rintro ⟨hresult, hcases, -, hfirst⟩
    simp only [getElem?_extractEach] at hresult hfirst
    exact ⟨hresult, hcases, hfirst⟩
  · rintro ⟨hresult, hcases, hfirst⟩
    simp only [← getElem?_extractEach] at hresult hfirst
    exact ⟨hresult, hcases, List.not_mem_nil, hfirst⟩

/-- The earliest declaration with cases is found by descent on the id. -/
theorem exists_keepsAt {id : Nat} {key : String} {u : UnionType}
    (h : c.resultAt? s id = some (key, .ok (some u))) (hcases : u.cases ≠ []) :
    ∃ first ≤ id, ∃ v, c.KeepsAt s first (key, v) := by
  induction id using Nat.strongRecOn generalizing u with
  | ind id ih =>
    by_cases hfirst : ∀ other < id, ∀ v,
        c.resultAt? s other = some (key, .ok (some v)) → v.cases = []
    · exact ⟨id, Nat.le_refl id, u, h, hcases, hfirst⟩
    · push Not at hfirst
      obtain ⟨other, hlt, v, hv, hne⟩ := hfirst
      obtain ⟨first, hle, w, hkeeps⟩ := ih other hlt hv hne
      exact ⟨first, hle.trans hlt.le, w, hkeeps⟩

theorem exists_extract_of_resultAt? {id : Nat} {key : String}
    {result : Except Failure (Option UnionType)} (h : c.resultAt? s id = some (key, result)) :
    ∃ d e, s.extract d e = result := by
  obtain ⟨e, -, h⟩ := Option.bind_eq_some_iff.1 h
  obtain ⟨d, -, heq⟩ := Option.map_eq_some_iff.1 h
  exact ⟨d, e, congrArg Prod.snd heq⟩

theorem extractAll_keeps_earliest (documents : List Document) (s : Settings) :
    KeepsEarliest documents s ((ofDocuments documents).extractAll s) := by
  obtain ⟨kept, hunions, hkept⟩ :=
    Extraction.exists_leading_collect [] ((ofDocuments documents).extractEach s)
  have hplaced : ByPosition ((ofDocuments documents).KeepsAt s) kept :=
    hkept.congr fun _ _ => leads_extractEach_iff
  have hmem : ∀ u ∈ ((ofDocuments documents).extractAll s).unions,
      u.cases ≠ [] ∧ ∃ d e, s.extract d e = .ok (some u) := by
    intro u hu
    rw [extractAll, hunions, List.mem_map] at hu
    obtain ⟨x, hx, rfl⟩ := hu
    obtain ⟨id, hkeeps⟩ := hplaced.mem_iff.1 hx
    exact ⟨hkeeps.cases_ne_nil, exists_extract_of_resultAt? hkeeps.result⟩
  constructor
  case ids => exact entries_eq_listing documents
  case unions => exact ⟨kept, hunions, Extraction.nodup_keys_of_leads hkept, hplaced⟩
  case represented =>
    intro id key u hresult hcases
    obtain ⟨first, hle, v, hkeeps⟩ := exists_keepsAt hresult hcases
    refine ⟨first, hle, v, ?_, hkeeps⟩
    rw [extractAll, hunions]
    exact List.mem_map.2 ⟨(key, v), hplaced.mem_iff.2 ⟨first, hkeeps⟩, rfl⟩
  case failures =>
    refine (Extraction.failures_collect [] _).congr fun id f => ?_
    simp only [getElem?_extractEach]
  case cases_ne_nil => exact fun u hu => (hmem u hu).1
  case names =>
    intro u hu
    obtain ⟨-, d, e, hextract⟩ := hmem u hu
    exact Settings.nodup_names_of_extract hextract
  case parameters =>
    intro u hu k hk
    obtain ⟨-, d, e, hextract⟩ := hmem u hu
    exact Settings.nodup_parameter_names_of_extract hextract hk

end

/-- Declarations of one union without cases and with different ones, around a declaration that
repeats a case. -/
def repeatedShape : Document where
  path := "shapes.json"
  types := [.marked "Shape" [] [], .marked "Shape" [] [{ name := "A" }],
    .marked "Dot" [] [{ name := "B" }, { name := "B" }], .marked "Shape" [] [{ name := "C" }]]

example : ((ofDocuments [repeatedShape]).extractAll {}).unions.map
    (fun u => (u.name, u.cases.map (·.name))) = [("Shape", ["A"])] := by decide +kernel

example : ((ofDocuments [repeatedShape]).extractAll {}).failures.map (·.code.text) = ["DX2"] := by
  decide +kernel

end Compilation
end CaseUnion
