import CaseUnion.Proofs.FixRuns
import CaseUnion.Proofs.MovedDeclarations

/-!
# Fixing a fixed document

Fixing moves the declarations of a document and changes no other part of them
(`sameDeclarations_of_run`). So a compilation with the fixed document in place of the old one agrees
with the compilation before, and where nothing was left to fix, nothing is to be fixed now:
`fix_idempotent`.
-/

namespace CaseUnion

namespace Document

variable {d fixed : Document} {path : String}

theorem sameDeclarations_of_apply {fix : CodeFix} (h : fix.apply d = .ok fixed) :
    d.SameDeclarations fixed := by
  obtain ⟨-, -, heq⟩ := CodeFix.apply_eq_ok_iff.1 h
  rw [heq]
  refine ⟨rfl, rfl, rfl, ?_⟩
  simp only [mapSpans, List.map_map, Function.comp_def, TypeDecl.withoutSpans_mapSpans]

theorem SameDeclarations.isAt_iff (h : d.SameDeclarations fixed) :
    fixed.IsAt path ↔ d.IsAt path := by
  rw [IsAt, IsAt, sourceName, sourceName, h.path, h.file]

end Document

namespace Compilation

variable {c c' : Compilation} {s : Settings} {d final : Document}

theorem sameDeclarations_of_run (h : Relation.ReflTransGen (c.FixStep s) d final) :
    d.SameDeclarations final := by
  induction h with
  | refl => exact .refl d
  | tail _ hstep ih =>
    obtain ⟨fix, -, happly⟩ := hstep
    exact ih.trans (Document.sameDeclarations_of_apply happly)

/-- Fixes depend on a compilation only through the unions of receivers. -/
theorem Agrees.fixes_eq (h : c.Agrees s c') (d : Document) : c'.fixes s d = c.fixes s d := by
  have hreceiver : c'.receiverUnion? s d = c.receiverUnion? s d := funext (h.receiver d)
  refine List.filterMap_congr fun g _ => ?_
  simp only [fixFor?, hreceiver]

theorem fixAll_eq_self (h : c.fixes s d = []) : c.fixAll s d = .ok d := by
  obtain ⟨applied, final, hrounds, hfinal⟩ := exists_rounds_fixAll c s d
  cases hrounds with
  | done => exact hfinal
  | next hfurthest => exact absurd hfurthest.mem (by simp [h])

end Compilation

namespace Generation

variable {g : Generation} {path : String} {fixed : Document}

/-- Let a document of a generation be fixed, which is the first one at a path. With the fixed one in
its place, every reference means the same declarations and every declaration gives the same union as
before, also where the document declares it; and fixing the document again leaves it as it is. -/
theorem fix_idempotent (h : g.fix path = .ok fixed) :
    ∃ before d after, g.documents = before ++ d :: after ∧ d.IsAt path ∧
      (∀ other ∈ before, ¬ other.IsAt path) ∧
      ({ g with documents := before ++ fixed :: after } : Generation).fix path = .ok fixed ∧
      g.compilation.Agrees g.settings
        ({ g with documents := before ++ fixed :: after } : Generation).compilation := by
  cases hfound : g.document? path with
  | none =>
    rw [fix, hfound] at h
    cases h
  | some d =>
    obtain ⟨before, after, hsplit, hat, hbefore⟩ := document?_eq_some_iff.1 hfound
    obtain ⟨final, hfinal, hrun, hdone⟩ := Compilation.exists_run_fixAll g.compilation g.settings d
    cases ((fix_eq_fixAll hfound).symm.trans h).symm.trans hfinal
    have hsame := Compilation.sameDeclarations_of_run hrun
    -- the two lists of documents differ in the fixed document only
    have hdocuments : List.Forall₂ Document.SameDeclarations g.documents
        (before ++ fixed :: after) := by
      rw [hsplit]
      exact List.rel_append (List.forall₂_same.2 fun other _ => .refl other)
        (.cons hsame (List.forall₂_same.2 fun other _ => .refl other))
    have hagrees := Compilation.agrees_of_sameDeclarations hdocuments g.settings
    refine ⟨before, d, after, hsplit, hat, hbefore, ?_, hagrees⟩
    have hfound' : ({ g with documents := before ++ fixed :: after } : Generation).document? path =
        some fixed :=
      document?_eq_some_iff.2 ⟨before, after, rfl, hsame.isAt_iff.2 hat, hbefore⟩
    rw [fix_eq_fixAll hfound']
    exact Compilation.fixAll_eq_self ((hagrees.fixes_eq fixed).trans hdone)

/-- A call in front of the union that it dispatches over. -/
def callBeforeUnion : Document where
  path := "shape.json"
  text := "s.Match(); struct Shape { interface Cases { void A(); } }"
  types := [⟨{ name := "Shape", kind := .structType, modifiers := { isPartial := true },
               attributes := [⟨"DiscriminatedUnion", .empty⟩], span := some ⟨11, 57⟩ },
    [.type ⟨{ name := "Cases", kind := .interfaceType, span := some ⟨26, 55⟩ },
      [.method { name := "A", span := some ⟨44, 53⟩ }]⟩]⟩]
  invocations := [
    { callee := "s.Match", method := "Match", receiver := some (.simple "Shape"), span := ⟨0, 9⟩ }]
  diagnostics := [⟨"CS7036", ⟨0, 9⟩⟩]

theorem fix_idempotent_callBeforeUnion :
    ∃ fixed, (⟨{}, [callBeforeUnion]⟩ : Generation).fix "shape.json" = .ok fixed ∧
      fixed.types.flatMap TypeDecl.spans = [⟨62, 108⟩, ⟨77, 106⟩, ⟨95, 104⟩] ∧
      (⟨{}, [fixed]⟩ : Generation).fix "shape.json" = .ok fixed := by
  have hoffered :
      0 < ((Compilation.ofDocuments [callBeforeUnion]).fixes {} callBeforeUnion).length := by
    decide +kernel
  have hmoved : ∀ fix ∈ (Compilation.ofDocuments [callBeforeUnion]).fixes {} callBeforeUnion,
      (fix.apply callBeforeUnion).toOption.map
          (fun fixed => (fixed.types.flatMap TypeDecl.spans, fixed.diagnostics)) =
        some ([⟨62, 108⟩, ⟨77, 106⟩, ⟨95, 104⟩], []) := by
    decide +kernel
  obtain ⟨applied, fixed, hrounds, hfixed⟩ :=
    Compilation.exists_rounds_fixAll (.ofDocuments [callBeforeUnion]) {} callBeforeUnion
  have hfix : (⟨{}, [callBeforeUnion]⟩ : Generation).fix "shape.json" = .ok fixed :=
    (fix_eq_fixAll rfl).trans hfixed
  obtain ⟨before, d, after, hsplit, -, -, hagain, -⟩ := fix_idempotent hfix
  obtain ⟨rfl, rfl⟩ : before = [] ∧ after = [] := by
    obtain ⟨hbefore, hafter⟩ | ⟨-, hnil⟩ := List.singleton_eq_append_iff.1 hsplit
    · exact ⟨hbefore, (List.cons.inj hafter).2⟩
    · cases hnil
  refine ⟨fixed, hfix, ?_, hagain⟩
  -- the only round moves the declaration, and drops the only diagnostic
  cases hrounds with
  | done hnone =>
    rw [hnone] at hoffered
    cases hoffered
  | next hfurthest happly hrest =>
    have hround := hmoved _ hfurthest.mem
    rw [happly] at hround
    obtain ⟨hspans, hdiagnostics⟩ := Prod.mk.inj (Option.some.inj hround)
    cases hrest with
    | done => exact hspans
    | next hfurthest' =>
      have hmem := Compilation.resolves_mem_of_mem_fixes hfurthest'.mem
      rw [hdiagnostics] at hmem
      cases hmem

end Generation
end CaseUnion
