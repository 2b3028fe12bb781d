import CaseUnion.Generation
import CaseUnion.Proofs.AppliedFix
import CaseUnion.Proofs.PathOrder

/-!
# Rounds of fixing

Fixing a document applies one of the offered fixes in each round, the one furthest back in the text
(`Compilation.Rounds`). No round fails and each drops a diagnostic, so there are at most as many
rounds as diagnostics, whatever the spans of the document are (`fix_ends`).
-/

namespace CaseUnion

section
variable {α : Type} {key : α → Nat} {xs : List α}

theorem eq_nil_of_lastGreatest?_eq_none (h : lastGreatest? key xs = none) : xs = [] := by
  cases xs with
  | nil => rfl
  | cons x rest =>
    simp only [lastGreatest?] at h
    split at h
    · cases h
    · split at h <;> cases h

theorem exists_split_of_lastGreatest? {x : α} (h : lastGreatest? key xs = some x) :
    ∃ before after, xs = before ++ x :: after ∧ (∀ y ∈ before, key y ≤ key x) ∧
      ∀ y ∈ after, key y < key x := by
  induction xs generalizing x with
  | nil => cases h
  | cons y rest ih =>
    rw [lastGreatest?] at h
    cases hrest : lastGreatest? key rest with
    | none =>
      rw [hrest] at h
      cases h
      rw [eq_nil_of_lastGreatest?_eq_none hrest]
      exact ⟨[], [], rfl, List.forall_mem_nil _, List.forall_mem_nil _⟩
    | some best =>
      simp only [hrest] at h
      obtain ⟨before, after, hsplit, hbefore, hafter⟩ := ih hrest
      split at h
      · rename_i hle
        cases h
        exact ⟨y :: before, after, congrArg _ hsplit, List.forall_mem_cons.2 ⟨hle, hbefore⟩, hafter⟩
      · rename_i hlt
        cases h
        refine ⟨[], rest, rfl, List.forall_mem_nil _, fun z hz => ?_⟩
        have hle : key z ≤ key best := by
          rw [hsplit, List.mem_append, List.mem_cons] at hz
          rcases hz with hz | rfl | hz
          · exact hbefore z hz
          · exact Nat.le_refl _
          · exact (hafter z hz).le
        exact Nat.lt_of_le_of_lt hle (Nat.lt_of_not_le hlt)

end

/-- A document is at a path if its own path or its source name has the same components. -/
def Document.IsAt (d : Document) (path : String) : Prop :=
  Path.steps d.path = Path.steps path ∨ Path.steps d.sourceName = Path.steps path

instance (d : Document) (path : String) : Decidable (d.IsAt path) :=
  inferInstanceAs (Decidable (Path.steps d.path = Path.steps path ∨
    Path.steps d.sourceName = Path.steps path))

/-- Of the fixes the one that starts furthest back in the text, and of several there the last. -/
def CodeFix.FurthestBack (fix : CodeFix) (fixes : List CodeFix) : Prop :=
  ∃ before after, fixes = before ++ fix :: after ∧
    (∀ other ∈ before, other.edit.span.start ≤ fix.edit.span.start) ∧
    ∀ other ∈ after, other.edit.span.start < fix.edit.span.start

theorem CodeFix.FurthestBack.mem {fix : CodeFix} {fixes : List CodeFix}
    (h : fix.FurthestBack fixes) : fix ∈ fixes := by
  obtain ⟨before, after, rfl, -, -⟩ := h
  exact List.mem_append_right before List.mem_cons_self

namespace Compilation

/-- Rounds in which the fix furthest back is applied, until none is offered. The list has the
applied fixes in order. -/
inductive Rounds (c : Compilation) (s : Settings) : List CodeFix → Document → Document → Prop where
  | done {d : Document} (hnone : c.fixes s d = []) : Rounds c s [] d d
  | next {fix : CodeFix} {applied : List CodeFix} {d fixed final : Document}
      (hfurthest : fix.FurthestBack (c.fixes s d)) (happly : fix.apply d = .ok fixed)
      (hrest : Rounds c s applied fixed final) : Rounds c s (fix :: applied) d final

namespace Rounds

variable {c : Compilation} {s : Settings} {applied : List CodeFix} {d final : Document}

theorem fixes_eq_nil (h : c.Rounds s applied d final) : c.fixes s final = [] := by
  induction h with
  | done hnone => exact hnone
  | next _ _ _ ih => exact ih

/-- Every round drops a diagnostic. -/
theorem length_add_le (h : c.Rounds s applied d final) :
    applied.length + final.diagnostics.length ≤ d.diagnostics.length := by
  induction h with
  | done => exact (Nat.zero_add _).le
  | next hfurthest happly _ ih =>
    have hlt := CodeFix.length_diagnostics_lt (resolves_mem_of_mem_fixes hfurthest.mem) happly
    rw [List.length_cons]
    omega

end Rounds

/-- No round fails, since an offered fix does not. -/
theorem exists_rounds_fixAll (c : Compilation) (s : Settings) (d : Document) :
    ∃ applied final, c.Rounds s applied d final ∧ c.fixAll s d = .ok final := by
  fun_induction c.fixAll s d with
  | case1 d hnext => exact ⟨[], d, .done (eq_nil_of_lastGreatest?_eq_none hnext), rfl⟩
  | case2 d fix hnext failure happly =>
    obtain ⟨fixed, hok⟩ := exists_apply_of_mem_fixes (mem_of_lastGreatest? hnext)
    rw [happly] at hok
    cases hok
  | case3 d fix hnext fixed happly ih =>
    obtain ⟨applied, final, hrounds, hfinal⟩ := ih
    have hfurthest : fix.FurthestBack (c.fixes s d) := exists_split_of_lastGreatest? hnext
    exact ⟨fix :: applied, final, .next hfurthest happly hrounds, hfinal⟩

end Compilation

namespace Generation

variable {g : Generation} {path : String}

theorem isAt_iff {d : Document} :
    (Path.same d.path path || Path.same d.sourceName path) ↔ d.IsAt path := by
  rw [Bool.or_eq_true, Path.same_iff, Path.same_iff, Document.IsAt]

theorem document?_eq_some_iff {d : Document} : g.document? path = some d ↔
    ∃ before after, g.documents = before ++ d :: after ∧ d.IsAt path ∧
      ∀ other ∈ before, ¬ other.IsAt path := by
  rw [document?, List.find?_eq_some_iff_append]
  simp only [isAt_iff, Bool.not_eq_true', Bool.eq_false_iff, ne_eq]
  constructor
  · rintro ⟨hat, before, after, hsplit, hbefore⟩
    exact ⟨before, after, hsplit, hat, hbefore⟩
  · rintro ⟨before, after, hsplit, hat, hbefore⟩
    exact ⟨hat, before, after, hsplit, hbefore⟩

theorem document?_eq_none_iff : g.document? path = none ↔ ∀ d ∈ g.documents, ¬ d.IsAt path := by
  rw [document?, List.find?_eq_none]
  simp only [isAt_iff]

theorem fix_eq_fixAll {d : Document} (h : g.document? path = some d) :
    g.fix path = g.compilation.fixAll g.settings d := by
  rw [fix, h]

/-- An offered fix does not fail, and it leaves fewer diagnostics. So fixing the first document at a
path takes at most as many rounds as it has diagnostics and leaves nothing to fix; it fails just
where no document is at the path. -/
theorem fix_ends (g : Generation) (path : String) :
    (∀ (c : Compilation) (s : Settings) (d : Document), ∀ fix ∈ c.fixes s d, ∃ fixed,
        fix.apply d = .ok fixed ∧ fixed.diagnostics.length < d.diagnostics.length) ∧
      (∀ before d after, g.documents = before ++ d :: after → d.IsAt path →
        (∀ other ∈ before, ¬ other.IsAt path) →
        ∃ applied final, g.compilation.Rounds g.settings applied d final ∧
          applied.length ≤ d.diagnostics.length ∧ g.fix path = .ok final ∧
          g.compilation.fixes g.settings final = []) ∧
      ((∃ failure, g.fix path = .error failure ∧ failure.code.text = "FS2") ↔
        ∀ d ∈ g.documents, ¬ d.IsAt path) := by
  refine ⟨?_, ?_, ?_⟩
  · intro c s d fix hfix
    obtain ⟨fixed, happly⟩ := Compilation.exists_apply_of_mem_fixes hfix
    exact ⟨fixed, happly,
      CodeFix.length_diagnostics_lt (Compilation.resolves_mem_of_mem_fixes hfix) happly⟩
  · intro before d after hsplit hat hbefore
    obtain ⟨applied, final, hrounds, hfinal⟩ :=
      Compilation.exists_rounds_fixAll g.compilation g.settings d
    have hfound := document?_eq_some_iff.2 ⟨before, after, hsplit, hat, hbefore⟩
    exact ⟨applied, final, hrounds, (Nat.le_add_right _ _).trans hrounds.length_add_le,
      (fix_eq_fixAll hfound).trans hfinal, hrounds.fixes_eq_nil⟩
  · rw [← document?_eq_none_iff]
    constructor
    · rintro ⟨failure, hfailure, -⟩
      cases hfound : g.document? path with
      | none => rfl
      | some d =>
        obtain ⟨_, final, -, hfinal⟩ := Compilation.exists_rounds_fixAll g.compilation g.settings d
        rw [fix_eq_fixAll hfound, hfinal] at hfailure
        cases hfailure
    · intro hnone
      exact ⟨.of (.fileNotFound path), by rw [fix, hnone],
        (by decide : (⟨.filesystem, 2⟩ : Code).text = "FS2")⟩

/-- Calls that overlap, begin inside of a character, are inverted or reach behind the text, and
diagnostics that are repeated or inverted. -/
def unrulyCalls : Document where
  path := "shapes.json"
  file := some "src/Shapes.cs"
  text := "é.Match() é.Match()"
  types := [⟨{ name := "Shape", kind := .structType, modifiers := { isPartial := true },
               attributes := [⟨"DiscriminatedUnion", .empty⟩] },
    [.type ⟨{ name := "Cases", kind := .interfaceType },
      [.method { name := "A" }, .method { name := "B" }]⟩]⟩]
  invocations := [⟨0, 10⟩, ⟨5, 21⟩, ⟨12, 21⟩, ⟨21, 3⟩, ⟨0, 99⟩].map fun span =>
    { callee := "é.Match", method := "Match", receiver := some (.simple "Shape"), span := span }
  diagnostics := [⟨2, 9⟩, ⟨2, 9⟩, ⟨6, 12⟩, ⟨13, 20⟩, ⟨30, 2⟩].map (⟨"CS7036", ·⟩)

def unrulyGeneration : Generation := ⟨{}, [{ path := "src" }, unrulyCalls]⟩

theorem fix_ends_on_unrulyCalls :
    (∃ fix ∈ unrulyGeneration.compilation.fixes {} unrulyCalls, ∃ fixed,
        fix.apply unrulyCalls = .ok fixed ∧ fixed.diagnostics.length < 5) ∧
      (∃ applied final, unrulyGeneration.compilation.Rounds {} applied unrulyCalls final ∧
        applied.length ≤ 5 ∧ unrulyGeneration.fix "src//./Shapes.cs/" = .ok final ∧
        unrulyGeneration.compilation.fixes {} final = []) ∧
      ∃ failure, unrulyGeneration.fix "Shapes.cs" = .error failure ∧ failure.code.text = "FS2" := by
  obtain ⟨happlies, hends, -⟩ := fix_ends unrulyGeneration "src//./Shapes.cs/"
  obtain ⟨-, -, hunknown⟩ := fix_ends unrulyGeneration "Shapes.cs"
  refine ⟨?_, ?_, ?_⟩
  · have hoffered : 0 < (unrulyGeneration.compilation.fixes {} unrulyCalls).length := by
      decide +kernel
    obtain ⟨fix, hfix⟩ := List.exists_mem_of_length_pos hoffered
    exact ⟨fix, hfix, happlies _ _ _ fix hfix⟩
  · exact hends [{ path := "src" }] unrulyCalls [] rfl (Or.inr (by decide +kernel))
      (List.forall_mem_singleton.2 (by decide +kernel))
  · exact hunknown.2 (by decide +kernel)

end Generation
end CaseUnion
