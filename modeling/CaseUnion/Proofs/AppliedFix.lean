import Mathlib.Data.List.Basic
import CaseUnion.Proofs.OfferedFixes

/-!
# What applying a fix does to the other fixes

On documents whose calls and diagnostics are well placed, applying an offered fix moves all spans by
an insertion in front of a closing parenthesis. This changes neither the call around a diagnostic
(`callAround?_of_apply`) nor the completion of any other call, and it leaves nothing to complete in
the call itself (`completion?_of_apply`).

So the fixes offered afterwards are the ones offered before for other calls, moved along:
`fixes_of_apply`. The document stays well placed (`wellPlaced_of_apply`).
-/

namespace CaseUnion

/-- The `Match` calls of a document and the diagnostics with the configured id denote something, and
of two `Match` calls one contains the other or they are apart. -/
structure Document.WellPlaced (d : Document) (s : Settings) : Prop where
  call_proper : ∀ call ∈ d.invocations, call.method = "Match" → call.span.Proper
  calls_nested : ∀ call ∈ d.invocations, ∀ other ∈ d.invocations, call.method = "Match" →
    other.method = "Match" → call.span.NestedOrDisjoint other.span
  diagnostic_proper : ∀ g ∈ d.diagnostics, g.id = s.diagnosticId → g.span.Proper

def HostDiagnostic.moved (e : TextEdit) (g : HostDiagnostic) : HostDiagnostic :=
  { g with span := e.remap g.span }

namespace CodeFix

/-- A fix for another call after an edit of the document. -/
def moved (e : TextEdit) (fix : CodeFix) : CodeFix :=
  { fix with
    resolves := fix.resolves.moved e
    edit := .insert (e.remapOffset fix.edit.span.start true) fix.edit.text }

@[simp]
theorem moved_invocation (e : TextEdit) (fix : CodeFix) :
    (fix.moved e).invocation = fix.invocation := rfl

@[simp]
theorem moved_appended (e : TextEdit) (fix : CodeFix) :
    (fix.moved e).appended = fix.appended := rfl

@[simp]
theorem moved_start (e : TextEdit) (fix : CodeFix) :
    (fix.moved e).edit.span.start = e.remapOffset fix.edit.span.start true := rfl

/-- The call at a position after a fix is applied. -/
def completed (fix : CodeFix) (call : Invocation) (position : Nat) : Invocation :=
  { call with
    arguments := if position = fix.invocation then call.arguments ++ fix.appended
      else call.arguments
    span := fix.edit.remap call.span }

variable {fix : CodeFix} {d fixed : Document}

theorem apply_eq_ok_iff :
    fix.apply d = .ok fixed ↔
      fix.invocation < d.invocations.length ∧ fix.edit.apply d.text = .ok fixed.text ∧
        fixed = { ({ d with
          diagnostics := d.diagnostics.filter (· != fix.resolves)
          invocations := d.invocations.modify fix.invocation fun call =>
            { call with arguments := call.arguments ++ fix.appended } } : Document).mapSpans
              fix.edit.remap with text := fixed.text } := by
  rw [apply]
  split
  · rename_i hlt
    rw [Document.edit_eq_ok_iff]
    exact (and_iff_right hlt).symm
  · rename_i hlt
    simp [hlt]

theorem diagnostics_of_apply (h : fix.apply d = .ok fixed) :
    fixed.diagnostics = (d.diagnostics.filter (· != fix.resolves)).map (·.moved fix.edit) := by
  obtain ⟨_, _, heq⟩ := apply_eq_ok_iff.1 h
  rw [heq]
  rfl

theorem nameSpace_of_apply (h : fix.apply d = .ok fixed) : fixed.nameSpace = d.nameSpace := by
  obtain ⟨_, _, heq⟩ := apply_eq_ok_iff.1 h
  rw [heq]
  rfl

theorem sourceName_of_apply (h : fix.apply d = .ok fixed) : fixed.sourceName = d.sourceName := by
  obtain ⟨_, _, heq⟩ := apply_eq_ok_iff.1 h
  rw [heq]
  rfl

theorem getElem?_invocations_of_apply (h : fix.apply d = .ok fixed) (k : Nat) :
    fixed.invocations[k]? = d.invocations[k]?.map fun call => fix.completed call k := by
  obtain ⟨_, _, heq⟩ := apply_eq_ok_iff.1 h
  rw [heq]
  simp only [Document.mapSpans, List.getElem?_map, List.getElem?_modify, Option.map_eq_map,
    Option.map_map]
  congr 1
  funext call
  by_cases hk : fix.invocation = k
  · simp [completed, hk]
  · simp [completed, hk, Ne.symm hk]

theorem zipIdx_invocations_of_apply (h : fix.apply d = .ok fixed) :
    fixed.invocations.zipIdx =
      d.invocations.zipIdx.map fun x => (fix.completed x.1 x.2, x.2) := by
  apply List.ext_getElem?
  intro k
  rw [List.getElem?_map, List.getElem?_zipIdx, List.getElem?_zipIdx, Nat.zero_add,
    getElem?_invocations_of_apply h, Option.map_map, Option.map_map]
  rfl

theorem exists_of_mem_invocations (h : fix.apply d = .ok fixed) {call : Invocation}
    (hcall : call ∈ fixed.invocations) :
    ∃ old ∈ d.invocations, call.method = old.method ∧ call.span = fix.edit.remap old.span := by
  obtain ⟨k, hk⟩ := List.mem_iff_getElem?.1 hcall
  rw [getElem?_invocations_of_apply h] at hk
  obtain ⟨old, hold, rfl⟩ := Option.map_eq_some_iff.1 hk
  exact ⟨old, List.mem_of_getElem? hold, rfl, rfl⟩

end CodeFix

namespace Compilation

variable {c : Compilation} {s : Settings} {d fixed : Document} {fix : CodeFix}

/-- An offered fix inserts its text in front of a closing parenthesis. -/
theorem exists_insert_of_mem_fixes (hfix : fix ∈ c.fixes s d) :
    ∃ call offset text, d.invocations[fix.invocation]? = some call ∧
      fix.edit = .insert offset text ∧ Text.ClosesAt call.span d.text.toList offset := by
  obtain ⟨_, _, call, hcall, _, hcompletion⟩ := exists_of_mem_fixes hfix
  obtain ⟨_, n, _, _, _, hclose, hedit⟩ := completion?_eq_some_iff.1 hcompletion
  exact ⟨call, n, _, hcall, hedit, hclose⟩

theorem exists_apply_of_mem_fixes (hfix : fix ∈ c.fixes s d) : ∃ fixed, fix.apply d = .ok fixed := by
  obtain ⟨call, offset, text, hcall, hedit, hclose⟩ := exists_insert_of_mem_fixes hfix
  obtain ⟨a, b, htext, ha⟩ := hclose.exists_eq
  have hboundary : Text.IsBoundary offset d.text.toList := ⟨a, ')' :: b, htext, ha⟩
  have hfits : Text.Fits fix.edit.span d.text := by
    rw [hedit]
    exact ⟨Nat.le_refl _, Text.byteLength_toList d.text ▸ hboundary.le, hboundary, hboundary⟩
  obtain ⟨edited, happly⟩ := TextEdit.exists_apply_eq_ok_iff.2 hfits
  have hlt : fix.invocation < d.invocations.length := (List.getElem?_eq_some_iff.1 hcall).1
  rw [CodeFix.apply, if_pos hlt, Document.edit, happly]
  exact ⟨_, rfl⟩

/-- Applying an offered fix replaces nothing, and a parenthesis stands behind what it inserts. -/
theorem exists_replaces_of_apply (hfix : fix ∈ c.fixes s d) (happly : fix.apply d = .ok fixed) :
    ∃ offset text before rest, fix.edit = .insert offset text ∧
      (TextEdit.insert offset text).Replaces d.text fixed.text before [] (')' :: rest) := by
  obtain ⟨call, offset, text, _, hedit, hclose⟩ := exists_insert_of_mem_fixes hfix
  obtain ⟨_, htext, _⟩ := CodeFix.apply_eq_ok_iff.1 happly
  rw [hedit] at htext
  obtain ⟨before, inside, after, h⟩ := TextEdit.apply_eq_ok_iff.1 htext
  obtain ⟨a, b, hold, ha⟩ := hclose.exists_eq
  have hstart : Text.byteLength before = offset := h.start_eq
  have hstop : offset + Text.byteLength inside = offset := h.stop_eq
  have hempty : inside = [] := Text.eq_nil_of_byteLength_eq_zero (by omega)
  subst hempty
  have hafter : after = ')' :: b := by
    have heq := h.old_eq.symm.trans hold
    rw [List.append_nil] at heq
    exact (Text.append_inj_of_byteLength_eq heq (hstart.trans ha.symm)).2
  subst hafter
  exact ⟨offset, text, before, b, hedit, h⟩

theorem wellPlaced_of_apply (hplaced : d.WellPlaced s) (hfix : fix ∈ c.fixes s d)
    (happly : fix.apply d = .ok fixed) : fixed.WellPlaced s := by
  obtain ⟨_, offset, text, _, hedit, _⟩ := exists_insert_of_mem_fixes hfix
  constructor
  case call_proper =>
    intro call hcall hmethod
    obtain ⟨old, hold, hsame, hspan⟩ := CodeFix.exists_of_mem_invocations happly hcall
    rw [hspan, hedit]
    exact TextEdit.proper_remap (hplaced.call_proper old hold (hsame.symm.trans hmethod))
  case calls_nested =>
    intro call hcall other hother hmethod hmethod'
    obtain ⟨old, hold, hsame, hspan⟩ := CodeFix.exists_of_mem_invocations happly hcall
    obtain ⟨old', hold', hsame', hspan'⟩ := CodeFix.exists_of_mem_invocations happly hother
    have hm := hsame.symm.trans hmethod
    have hm' := hsame'.symm.trans hmethod'
    rw [hspan, hspan', hedit]
    exact TextEdit.nestedOrDisjoint_remap (hplaced.call_proper old hold hm)
      (hplaced.call_proper old' hold' hm') (hplaced.calls_nested old hold old' hold' hm hm')
  case diagnostic_proper =>
    intro g hg hid
    rw [CodeFix.diagnostics_of_apply happly] at hg
    obtain ⟨old, hold, rfl⟩ := List.mem_map.1 hg
    rw [hedit]
    exact TextEdit.proper_remap (hplaced.diagnostic_proper old (List.mem_filter.1 hold).1 hid)

theorem callAround?_of_apply (hplaced : d.WellPlaced s) (hfix : fix ∈ c.fixes s d)
    (happly : fix.apply d = .ok fixed) {g : HostDiagnostic} (hg : g.span.Proper) :
    callAround? fixed (g.moved fix.edit) =
      (callAround? d g).map fun x => (fix.completed x.1 x.2, x.2) := by
  obtain ⟨_, offset, text, _, hedit, _⟩ := exists_insert_of_mem_fixes hfix
  -- a call is a candidate after the fix if and only if it was one before
  have hcandidate : ∀ x ∈ d.invocations.zipIdx,
      ((fix.completed x.1 x.2).method == "Match" &&
        (fix.completed x.1 x.2).span.contains (g.moved fix.edit).span) =
      (x.1.method == "Match" && x.1.span.contains g.span) := by
    intro x hx
    by_cases hmethod : x.1.method = "Match"
    · have hproper := hplaced.call_proper x.1 (List.fst_mem_of_mem_zipIdx hx) hmethod
      simp only [CodeFix.completed, HostDiagnostic.moved, hedit,
        TextEdit.contains_remap hproper hg]
    · have hother : (x.1.method == "Match") = false := by simpa using hmethod
      simp only [CodeFix.completed, hother, Bool.false_and]
  rw [callAround?_eq, callAround?_eq, CodeFix.zipIdx_invocations_of_apply happly, List.filter_map]
  simp only [Function.comp_def]
  rw [List.filter_congr hcandidate]
  apply firstLeast?_map
  intro x hx y hy
  obtain ⟨hx, hxg⟩ := List.mem_filter.1 hx
  obtain ⟨hy, hyg⟩ := List.mem_filter.1 hy
  simp only [Bool.and_eq_true, beq_iff_eq] at hxg hyg
  have hx' := List.fst_mem_of_mem_zipIdx hx
  have hy' := List.fst_mem_of_mem_zipIdx hy
  -- both contain the diagnostic, so one contains the other and the shorter one stays so
  have hnested := (hplaced.calls_nested x.1 hx' y.1 hy' hxg.1 hyg.1).nested hg hxg.2 hyg.2
  simp only [CodeFix.completed, hedit]
  exact TextEdit.length_remap_le_iff (hplaced.call_proper x.1 hx' hxg.1)
    (hplaced.call_proper y.1 hy' hyg.1) hnested

theorem receiverUnion?_of_apply (happly : fix.apply d = .ok fixed) (call : Invocation) (k : Nat) :
    c.receiverUnion? s fixed (fix.completed call k) = c.receiverUnion? s d call := by
  simp only [receiverUnion?, CodeFix.nameSpace_of_apply happly, CodeFix.completed]

theorem completionEdit?_of_apply (hfix : fix ∈ c.fixes s d) (happly : fix.apply d = .ok fixed)
    {call completed : Invocation} (hproper : call.span.Proper)
    (hspan : completed.span = fix.edit.remap call.span)
    (harguments : completed.arguments = call.arguments) (appended : List Argument) :
    completionEdit? fixed completed appended =
      (completionEdit? d call appended).map fun e =>
        .insert (fix.edit.remapOffset e.span.start true) e.text := by
  obtain ⟨offset, text, before, rest, hedit, h⟩ := exists_replaces_of_apply hfix happly
  rw [hedit] at hspan ⊢
  ext e
  rw [completionEdit?_eq_some_iff, Option.map_eq_some_iff]
  constructor
  · rintro ⟨n, hclose, rfl⟩
    rw [hspan] at hclose
    obtain ⟨m, hold, rfl⟩ := (h.closesAt_remap_iff hproper).1 hclose
    refine ⟨_, completionEdit?_eq_some_iff.2 ⟨m, hold, rfl⟩, ?_⟩
    rw [completionText_congr harguments]
    rfl
  · rintro ⟨e', he', rfl⟩
    obtain ⟨m, hclose, rfl⟩ := completionEdit?_eq_some_iff.1 he'
    refine ⟨_, hspan ▸ (h.closesAt_remap_iff hproper).2 ⟨m, hclose, rfl⟩, ?_⟩
    rw [completionText_congr harguments]
    rfl

/-- A fix completes its own call, and moves the completions of the others. -/
theorem completion?_of_apply (hplaced : d.WellPlaced s) (hfix : fix ∈ c.fixes s d)
    (happly : fix.apply d = .ok fixed) {call : Invocation} {k : Nat}
    (hcall : d.invocations[k]? = some call) (hmethod : call.method = "Match") :
    c.completion? s fixed (fix.completed call k) =
      if k = fix.invocation then none
      else (c.completion? s d call).map fun (appended, e) =>
        (appended, .insert (fix.edit.remapOffset e.span.start true) e.text) := by
  have hproper := hplaced.call_proper call (List.mem_of_getElem? hcall) hmethod
  split
  · rename_i hk
    subst hk
    obtain ⟨_, _, call', hcall', _, hcompletion⟩ := exists_of_mem_fixes hfix
    have hsame : call' = call := Option.some.inj (hcall'.symm.trans hcall)
    subst hsame
    obtain ⟨u, _, hu, happended, _⟩ := completion?_eq_some_iff.1 hcompletion
    have hnone : missingArguments u (fix.completed call' fix.invocation) = [] :=
      missingArguments_eq_nil call' (by rw [← happended]; simp [CodeFix.completed])
    rw [completion?, receiverUnion?_of_apply happly, hu, Option.bind_some, hnone]
    rfl
  · rename_i hk
    have harguments : (fix.completed call k).arguments = call.arguments := by
      simp [CodeFix.completed, hk]
    rw [completion?, completion?, receiverUnion?_of_apply happly]
    cases c.receiverUnion? s d call with
    | none => rfl
    | some u =>
      simp only [Option.bind_some, missingArguments_congr harguments]
      split
      · rfl
      · rw [completionEdit?_of_apply hfix happly hproper rfl harguments, Option.map_map,
          Option.map_map]
        rfl

theorem fixFor?_of_apply (hplaced : d.WellPlaced s) (hfix : fix ∈ c.fixes s d)
    (happly : fix.apply d = .ok fixed) {g : HostDiagnostic} (hg : g ∈ d.diagnostics) :
    c.fixFor? s fixed (g.moved fix.edit) =
      ((c.fixFor? s d g).filter fun other => other.invocation != fix.invocation).map
        (·.moved fix.edit) := by
  rw [fixFor?_eq, fixFor?_eq]
  by_cases hid : g.id = s.diagnosticId
  · rw [if_pos hid, if_pos (show (g.moved fix.edit).id = s.diagnosticId from hid),
      callAround?_of_apply hplaced hfix happly (hplaced.diagnostic_proper g hg hid)]
    cases haround : callAround? d g with
    | none => rfl
    | some around =>
      obtain ⟨call, k⟩ := around
      obtain ⟨hcall, hmethod, _⟩ := mem_of_callAround? haround
      simp only [Option.map_some, Option.bind_some,
        completion?_of_apply hplaced hfix happly hcall hmethod]
      by_cases hk : k = fix.invocation
      · cases c.completion? s d call <;> simp [hk, Option.filter_some]
      · cases c.completion? s d call with
        | none => simp [hk]
        | some completion =>
          simp [hk, CodeFix.moved, CodeFix.sourceName_of_apply happly, HostDiagnostic.moved,
            Option.filter_some]
  · rw [if_neg hid, if_neg (show ¬ (g.moved fix.edit).id = s.diagnosticId from hid)]
    rfl

/-- After a fix is applied, the fixes for the other calls are still offered, and no others. -/
theorem fixes_of_apply (hplaced : d.WellPlaced s) (hfix : fix ∈ c.fixes s d)
    (happly : fix.apply d = .ok fixed) :
    c.fixes s fixed =
      ((c.fixes s d).filter fun other => other.invocation != fix.invocation).map
        (·.moved fix.edit) := by
  rw [fixes, fixes, CodeFix.diagnostics_of_apply happly, List.filterMap_map,
    List.filterMap_filter, List.filter_filterMap, List.map_filterMap]
  apply List.filterMap_congr
  intro g hg
  by_cases heq : g = fix.resolves
  · obtain ⟨g', hg', hfor⟩ := List.mem_filterMap.1 hfix
    have hresolves := resolves_of_fixFor? hfor
    rw [heq, hresolves, hfor]
    simp [Option.filter_some]
  · rw [if_pos (by simpa using heq)]
    exact fixFor?_of_apply hplaced hfix happly hg

end Compilation
end CaseUnion
