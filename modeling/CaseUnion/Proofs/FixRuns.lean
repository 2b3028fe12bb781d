import Mathlib.Logic.Relation
import CaseUnion.Proofs.FixRounds
import CaseUnion.Proofs.Weaving

/-!
# Runs of fixes

A run applies offered fixes in any order. While other calls are completed, the fixes that are still
offered move along (`fixes_of_apply`), so what remains to be inserted in front of each character
(`insertedAt_of_apply`) and to be appended to each call (`appendedTo_of_apply`) is known after each
step. At the end nothing remains, and by induction on the run from its end every document on the way
only lacks what was offered for it: `text_of_run` and `arguments_of_run`.

Every step drops a diagnostic, so all runs end.
-/

namespace CaseUnion

namespace Compilation

/-- Fixes for different calls insert in front of different parentheses. -/
def ClosesApart (c : Compilation) (s : Settings) (d : Document) : Prop :=
  ∀ fix ∈ c.fixes s d, ∀ other ∈ c.fixes s d,
    fix.edit.span.start = other.edit.span.start → fix.invocation = other.invocation

instance (c : Compilation) (s : Settings) (d : Document) : Decidable (c.ClosesApart s d) :=
  inferInstanceAs (Decidable (∀ fix ∈ c.fixes s d, ∀ other ∈ c.fixes s d,
    fix.edit.span.start = other.edit.span.start → fix.invocation = other.invocation))

def insertedAt (c : Compilation) (s : Settings) (d : Document) (n : Nat) : List Char :=
  match (c.fixes s d).find? fun fix => fix.edit.span.start == n with
  | some fix => fix.edit.text.toList
  | none => []

def appendedTo (c : Compilation) (s : Settings) (d : Document) (k : Nat) : List Argument :=
  match (c.fixes s d).find? fun fix => fix.invocation == k with
  | some fix => fix.appended
  | none => []

/-- One step of a run: some fix that is offered is applied. -/
def FixStep (c : Compilation) (s : Settings) (d fixed : Document) : Prop :=
  ∃ fix ∈ c.fixes s d, fix.apply d = .ok fixed

section
variable {c : Compilation} {s : Settings} {d fixed final : Document} {fix other : CodeFix}

theorem completion_eq_of_invocation_eq (hfix : fix ∈ c.fixes s d) (hother : other ∈ c.fixes s d)
    (h : fix.invocation = other.invocation) :
    fix.appended = other.appended ∧ fix.edit = other.edit := by
  obtain ⟨_, _, call, hcall, _, hcompletion⟩ := exists_of_mem_fixes hfix
  obtain ⟨_, _, call', hcall', _, hcompletion'⟩ := exists_of_mem_fixes hother
  have hsame : call = call' := Option.some.inj (hcall.symm.trans (h ▸ hcall'))
  subst hsame
  exact Prod.mk.inj (Option.some.inj (hcompletion.symm.trans hcompletion'))

theorem insertedAt_of_mem (hapart : c.ClosesApart s d) (hfix : fix ∈ c.fixes s d) {n : Nat}
    (hn : fix.edit.span.start = n) : c.insertedAt s d n = fix.edit.text.toList := by
  subst hn
  rw [insertedAt]
  cases hfind : (c.fixes s d).find? fun other => other.edit.span.start == fix.edit.span.start with
  | none =>
    have hnone := List.find?_eq_none.1 hfind fix hfix
    simp at hnone
  | some other =>
    have hother := List.mem_of_find?_eq_some hfind
    have hstart : other.edit.span.start = fix.edit.span.start := by
      simpa using List.find?_some hfind
    have hinvocation := hapart other hother fix hfix hstart
    simp only [(completion_eq_of_invocation_eq hother hfix hinvocation).2]

theorem insertedAt_eq_nil {n : Nat} (h : ∀ fix ∈ c.fixes s d, fix.edit.span.start ≠ n) :
    c.insertedAt s d n = [] := by
  rw [insertedAt, List.find?_eq_none.2 (by simpa using h)]

theorem appendedTo_of_mem (hfix : fix ∈ c.fixes s d) {k : Nat} (hk : fix.invocation = k) :
    c.appendedTo s d k = fix.appended := by
  subst hk
  rw [appendedTo]
  cases hfind : (c.fixes s d).find? fun other => other.invocation == fix.invocation with
  | none =>
    have hnone := List.find?_eq_none.1 hfind fix hfix
    simp at hnone
  | some other =>
    have hother := List.mem_of_find?_eq_some hfind
    have hinvocation : other.invocation = fix.invocation := by simpa using List.find?_some hfind
    simp only [(completion_eq_of_invocation_eq hother hfix hinvocation).1]

theorem appendedTo_eq_nil {k : Nat} (h : ∀ fix ∈ c.fixes s d, fix.invocation ≠ k) :
    c.appendedTo s d k = [] := by
  rw [appendedTo, List.find?_eq_none.2 (by simpa using h)]

theorem mem_fixes_of_apply_iff (hplaced : d.WellPlaced s) (hfix : fix ∈ c.fixes s d)
    (happly : fix.apply d = .ok fixed) (moved : CodeFix) :
    moved ∈ c.fixes s fixed ↔
      ∃ other ∈ c.fixes s d, other.invocation ≠ fix.invocation ∧ moved = other.moved fix.edit := by
  rw [fixes_of_apply hplaced hfix happly, List.mem_map]
  constructor
  · rintro ⟨other, hmem, rfl⟩
    obtain ⟨hother, hne⟩ := List.mem_filter.1 hmem
    exact ⟨other, hother, by simpa using hne, rfl⟩
  · rintro ⟨other, hother, hne, rfl⟩
    exact ⟨other, List.mem_filter.2 ⟨hother, by simpa using hne⟩, rfl⟩

theorem appendedTo_of_apply (hplaced : d.WellPlaced s) (hfix : fix ∈ c.fixes s d)
    (happly : fix.apply d = .ok fixed) (k : Nat) :
    c.appendedTo s fixed k = if k = fix.invocation then [] else c.appendedTo s d k := by
  have hmem := mem_fixes_of_apply_iff hplaced hfix happly
  by_cases hk : k = fix.invocation
  · rw [if_pos hk]
    apply appendedTo_eq_nil
    intro moved hmoved
    obtain ⟨other, _, hne, rfl⟩ := (hmem _).1 hmoved
    exact hk ▸ hne
  · rw [if_neg hk]
    by_cases hoffered : ∃ other ∈ c.fixes s d, other.invocation = k
    · obtain ⟨other, hother, rfl⟩ := hoffered
      have hmoved : other.moved fix.edit ∈ c.fixes s fixed := (hmem _).2 ⟨other, hother, hk, rfl⟩
      rw [appendedTo_of_mem hother rfl, appendedTo_of_mem hmoved (CodeFix.moved_invocation _ _),
        CodeFix.moved_appended]
    · have hnone : ∀ other ∈ c.fixes s d, other.invocation ≠ k :=
        fun other hother heq => hoffered ⟨other, hother, heq⟩
      rw [appendedTo_eq_nil hnone]
      apply appendedTo_eq_nil
      intro moved hmoved
      obtain ⟨other, hother, _, rfl⟩ := (hmem _).1 hmoved
      exact hnone other hother

theorem closesApart_of_apply (hplaced : d.WellPlaced s) (hapart : c.ClosesApart s d)
    (hfix : fix ∈ c.fixes s d) (happly : fix.apply d = .ok fixed) : c.ClosesApart s fixed := by
  obtain ⟨_, offset, text, _, hedit, _⟩ := exists_insert_of_mem_fixes hfix
  intro moved hmoved moved' hmoved' hstart
  obtain ⟨other, hother, _, rfl⟩ := (mem_fixes_of_apply_iff hplaced hfix happly _).1 hmoved
  obtain ⟨other', hother', _, rfl⟩ := (mem_fixes_of_apply_iff hplaced hfix happly _).1 hmoved'
  apply hapart other hother other' hother'
  simp only [CodeFix.moved_start, hedit, TextEdit.remapOffset_insert_start] at hstart
  split_ifs at hstart <;> omega

/-- What is inserted at another offset is inserted there after a fix is applied, moved along. -/
theorem insertedAt_of_apply (hplaced : d.WellPlaced s) (hapart : c.ClosesApart s d)
    (hfix : fix ∈ c.fixes s d) (happly : fix.apply d = .ok fixed) {n : Nat}
    (hn : n ≠ fix.edit.span.start) :
    c.insertedAt s fixed (fix.edit.remapOffset n true) = c.insertedAt s d n := by
  have hmem := mem_fixes_of_apply_iff hplaced hfix happly
  have hapart' := closesApart_of_apply hplaced hapart hfix happly
  obtain ⟨_, offset, text, _, hedit, _⟩ := exists_insert_of_mem_fixes hfix
  by_cases hoffered : ∃ other ∈ c.fixes s d, other.edit.span.start = n
  · obtain ⟨other, hother, rfl⟩ := hoffered
    have hne : other.invocation ≠ fix.invocation := by
      intro heq
      exact hn (by rw [(completion_eq_of_invocation_eq hother hfix heq).2])
    have hmoved : other.moved fix.edit ∈ c.fixes s fixed := (hmem _).2 ⟨other, hother, hne, rfl⟩
    rw [insertedAt_of_mem hapart hother rfl]
    exact insertedAt_of_mem hapart' hmoved rfl
  · have hnone : ∀ other ∈ c.fixes s d, other.edit.span.start ≠ n :=
      fun other hother heq => hoffered ⟨other, hother, heq⟩
    rw [insertedAt_eq_nil hnone]
    apply insertedAt_eq_nil
    intro moved hmoved heq
    obtain ⟨other, hother, _, rfl⟩ := (hmem _).1 hmoved
    apply hnone other hother
    simp only [CodeFix.moved_start, hedit, TextEdit.remapOffset_insert_start] at heq
    split_ifs at heq <;> omega

/-- Nothing more is inserted into the text that a fix inserted, nor directly behind it. -/
theorem insertedAt_of_apply_eq_nil (hplaced : d.WellPlaced s) (hapart : c.ClosesApart s d)
    (hfix : fix ∈ c.fixes s d) (happly : fix.apply d = .ok fixed) {n : Nat}
    (hle : fix.edit.span.start ≤ n)
    (hn : n ≤ fix.edit.span.start + Text.byteLength fix.edit.text.toList) :
    c.insertedAt s fixed n = [] := by
  obtain ⟨_, offset, text, _, hedit, _⟩ := exists_insert_of_mem_fixes hfix
  apply insertedAt_eq_nil
  intro moved hmoved heq
  obtain ⟨other, hother, hne, rfl⟩ := (mem_fixes_of_apply_iff hplaced hfix happly _).1 hmoved
  have hstart : other.edit.span.start ≠ fix.edit.span.start :=
    fun heq => hne (hapart other hother fix hfix heq)
  rw [hedit] at hle hn hstart
  simp only [CodeFix.moved_start, hedit, TextEdit.remapOffset_insert_start] at heq
  simp only [TextEdit.insert] at hle hn hstart
  split_ifs at heq <;> omega

/-- A step does part of what there is to insert, and leaves the rest to be inserted. -/
theorem weave_of_apply (hplaced : d.WellPlaced s) (hapart : c.ClosesApart s d)
    (hfix : fix ∈ c.fixes s d) (happly : fix.apply d = .ok fixed) :
    Text.weave (c.insertedAt s fixed) 0 fixed.text.toList =
      Text.weave (c.insertedAt s d) 0 d.text.toList := by
  obtain ⟨offset, text, before, rest, hedit, h⟩ := exists_replaces_of_apply hfix happly
  have hstart : Text.byteLength before = offset := h.start_eq
  have hspan : fix.edit.span.start = offset := by rw [hedit]; rfl
  have htext : fix.edit.text = text := by rw [hedit]; rfl
  have hshift : ∀ n, fix.edit.remapOffset n true =
      if offset ≤ n then n + Text.byteLength text.toList else n := by
    intro n
    rw [hedit, TextEdit.remapOffset_insert_start]
  have hother : ∀ n, n ≠ offset →
      c.insertedAt s fixed (fix.edit.remapOffset n true) = c.insertedAt s d n := by
    intro n hn
    exact insertedAt_of_apply hplaced hapart hfix happly (hspan ▸ hn)
  rw [h.new_eq, h.old_eq, List.append_nil, List.append_assoc]
  -- in front of the inserted text, in it and up to the parenthesis, at the offset, behind it
  apply Text.weave_insert
  · intro n hn
    rw [← hother n (by omega), hshift, if_neg (by omega)]
  · intro n hle hn
    apply insertedAt_of_apply_eq_nil hplaced hapart hfix happly
    · rwa [hspan, ← hstart]
    · rwa [hspan, htext, ← hstart]
  · rw [insertedAt_of_mem hapart hfix (hspan.trans hstart.symm), htext]
    rfl
  · intro n hn
    have hmoved := hother n (by omega)
    rw [hshift, if_pos (by omega)] at hmoved
    exact hmoved

theorem arguments_of_run (hrun : Relation.ReflTransGen (c.FixStep s) d final)
    (hdone : c.fixes s final = []) (hplaced : d.WellPlaced s) (k : Nat) :
    final.invocations[k]?.map (·.arguments) =
      d.invocations[k]?.map fun call => call.arguments ++ c.appendedTo s d k := by
  -- from the end of the run back: what a fix appends is no longer offered after it
  induction hrun using Relation.ReflTransGen.head_induction_on with
  | refl =>
    have hnil : c.appendedTo s final k = [] := appendedTo_eq_nil (by simp [hdone])
    simp only [hnil, List.append_nil]
  | head hstep _ ih =>
    obtain ⟨fix, hfix, happly⟩ := hstep
    rw [ih (wellPlaced_of_apply hplaced hfix happly), CodeFix.getElem?_invocations_of_apply happly,
      appendedTo_of_apply hplaced hfix happly, Option.map_map]
    congr 1
    funext call
    by_cases hk : k = fix.invocation
    · simp [CodeFix.completed, hk, appendedTo_of_mem hfix rfl]
    · simp [CodeFix.completed, hk]

theorem text_of_run (hrun : Relation.ReflTransGen (c.FixStep s) d final)
    (hdone : c.fixes s final = []) (hplaced : d.WellPlaced s) (hapart : c.ClosesApart s d) :
    final.text.toList = Text.weave (c.insertedAt s d) 0 d.text.toList := by
  -- from the end of the run back: no step changes what the text is to become
  induction hrun using Relation.ReflTransGen.head_induction_on with
  | refl =>
    have hnil : ∀ n, c.insertedAt s final n = [] := fun n => insertedAt_eq_nil (by simp [hdone])
    exact (Text.weave_eq_self fun n _ _ => hnil n).symm
  | head hstep _ ih =>
    obtain ⟨fix, hfix, happly⟩ := hstep
    rw [ih (wellPlaced_of_apply hplaced hfix happly) (closesApart_of_apply hplaced hapart hfix happly)]
    exact weave_of_apply hplaced hapart hfix happly

theorem acc_fixStep (c : Compilation) (s : Settings) (d : Document) :
    Acc (fun fixed current => c.FixStep s current fixed) d := by
  refine Subrelation.accessible ?_ ((measure fun d : Document => d.diagnostics.length).wf.apply d)
  rintro fixed current ⟨fix, hfix, happly⟩
  exact CodeFix.length_diagnostics_lt (resolves_mem_of_mem_fixes hfix) happly

theorem Rounds.run {applied : List CodeFix} (h : c.Rounds s applied d final) :
    Relation.ReflTransGen (c.FixStep s) d final := by
  induction h with
  | done => exact .refl
  | next hfurthest happly _ ih => exact .head ⟨_, hfurthest.mem, happly⟩ ih

/-- Applying the fix furthest back in the text is a run to the end. -/
theorem exists_run_fixAll (c : Compilation) (s : Settings) (d : Document) :
    ∃ final, c.fixAll s d = .ok final ∧ Relation.ReflTransGen (c.FixStep s) d final ∧
      c.fixes s final = [] := by
  obtain ⟨_, final, hrounds, hfinal⟩ := exists_rounds_fixAll c s d
  exact ⟨final, hfinal, hrounds.run, hrounds.fixes_eq_nil⟩

end

/-- What fixing one document has come to in another: the calls that a fix was offered for have a
placeholder for every uncovered case, the others have what they had, and the placeholders of each
call stand in front of its closing parenthesis. -/
structure Completed (c : Compilation) (s : Settings) (d final : Document) : Prop where
  target : ∀ fix ∈ c.fixes s d, ∃ call u, d.invocations[fix.invocation]? = some call ∧
    c.receiverUnion? s d call = some u ∧ u.FillsIn call fix.appended ∧
    final.invocations[fix.invocation]?.map (·.arguments) = some (call.arguments ++ fix.appended) ∧
    Text.ClosesAt call.span d.text.toList fix.edit.span.start ∧
    fix.edit.text = completionText call fix.appended
  other : ∀ k, (∀ fix ∈ c.fixes s d, fix.invocation ≠ k) →
    final.invocations[k]?.map (·.arguments) = d.invocations[k]?.map (·.arguments)
  text : ∃ inserted : Nat → List Char,
    (∀ fix ∈ c.fixes s d, inserted fix.edit.span.start = fix.edit.text.toList) ∧
      (∀ n, (∀ fix ∈ c.fixes s d, fix.edit.span.start ≠ n) → inserted n = []) ∧
      final.text.toList = Text.weave inserted 0 d.text.toList

section
variable {c : Compilation} {s : Settings} {d final : Document}

theorem completed_of_run (hrun : Relation.ReflTransGen (c.FixStep s) d final)
    (hdone : c.fixes s final = []) (hplaced : d.WellPlaced s) (hapart : c.ClosesApart s d) :
    c.Completed s d final := by
  have harguments := arguments_of_run hrun hdone hplaced
  constructor
  case target =>
    intro fix hfix
    obtain ⟨_, _, call, hcall, _, hcompletion⟩ := exists_of_mem_fixes hfix
    obtain ⟨u, n, hu, happended, _, hclose, hedit⟩ := completion?_eq_some_iff.1 hcompletion
    refine ⟨call, u, hcall, hu, ?_, ?_, ?_, ?_⟩
    · rw [happended]
      exact fillsIn_missingArguments call (nodup_names_of_receiverUnion? hu)
    · rw [harguments, hcall, appendedTo_of_mem hfix rfl]
      rfl
    · rw [hedit]
      exact hclose
    · rw [hedit]
      rfl
  case other =>
    intro k hk
    rw [harguments, appendedTo_eq_nil hk]
    simp only [List.append_nil]
  case text =>
    exact ⟨c.insertedAt s d, fun fix hfix => insertedAt_of_mem hapart hfix rfl,
      fun n hn => insertedAt_eq_nil hn, text_of_run hrun hdone hplaced hapart⟩

end

/-- A document with a union and two calls that lack cases, one of them inside the other. -/
def nestedMatches : Document where
  path := "shapes.json"
  text := "s.Match(A: () => s.Match())"
  types := [.marked "Shape" [] [{ name := "A" }, { name := "B" }]]
  invocations := [
    { callee := "s.Match", method := "Match", receiver := some (.named [.mk "Shape" []]),
      arguments := [⟨some "A", "() => s.Match()"⟩], span := ⟨0, 27⟩ },
    { callee := "s.Match", method := "Match", receiver := some (.named [.mk "Shape" []]),
      span := ⟨17, 26⟩ }]
  diagnostics := [⟨"CS7036", ⟨0, 7⟩⟩, ⟨"CS7036", ⟨17, 24⟩⟩]

end Compilation
end CaseUnion
