import Mathlib.Data.List.Induction
import Mathlib.Data.List.Infix
import CaseUnion.Proofs.SeparateEdits
import CaseUnion.Proofs.SpanInsertion
import CaseUnion.Proofs.WordOffsets

/-!
# Nested spans

A span that contains another one contains it after an edit, too, with a single exception. An
insertion takes along every start at its offset and no stop there, so text inserted at the end of a
span comes between this span and an empty one that stands at its end (`Detaches`,
`contains_remap_iff`).

With edits in a row, a diagnostic inside a call stays inside it exactly as long as none of them
detaches the two where they have gone by then: `edits_keep_nesting`. This is said of offsets in
words, so the spans must not be moved out of the word.
-/

namespace CaseUnion

/-- The span is not inverted. -/
def Span.Ordered (s : Span) : Prop := s.start ≤ s.stop

instance (s : Span) : Decidable s.Ordered := inferInstanceAs (Decidable (s.start ≤ s.stop))

theorem Span.eq_mk_iff {s : Span} {i j : Nat} : s = ⟨i, j⟩ ↔ s.start = i ∧ s.stop = j := by
  rw [← Span.mk.injEq]

namespace TextEdit

open Text

/-- The edit inserts text at the end of a span where an empty one stands as well. -/
structure Detaches (e : TextEdit) (outer inner : Span) : Prop where
  proper : outer.Proper
  span_eq : e.span = ⟨outer.stop, outer.stop⟩
  inner_eq : inner = ⟨outer.stop, outer.stop⟩
  text_ne : e.text ≠ ""

instance (e : TextEdit) (outer inner : Span) : Decidable (e.Detaches outer inner) :=
  decidable_of_iff (outer.Proper ∧ e.span = ⟨outer.stop, outer.stop⟩ ∧
      inner = ⟨outer.stop, outer.stop⟩ ∧ e.text ≠ "")
    ⟨fun ⟨hproper, hspan, hinner, htext⟩ => ⟨hproper, hspan, hinner, htext⟩,
      fun ⟨hproper, hspan, hinner, htext⟩ => ⟨hproper, hspan, hinner, htext⟩⟩

theorem byteLength_pos {text : String} (h : text ≠ "") : 0 < byteLength text.toList := by
  rw [byteLength_toList]
  exact Nat.pos_of_ne_zero fun hzero => h (String.utf8ByteSize_eq_zero_iff.1 hzero)

/-! ### One edit -/

theorem ordered_remap (e : TextEdit) (s : Span) : (e.remap s).Ordered := Nat.le_max_right _ _

section
variable {e : TextEdit} {outer inner : Span}

/-- Only where text is inserted a start may overtake a stop. -/
theorem remapOffset_start_le_stop {i j : Nat} (he : e.span.Ordered) (h : i ≤ j)
    (hinsert : e.span = ⟨j, j⟩ → i = j → e.text = "") :
    e.remapOffset i true ≤ e.remapOffset j false := by
  have hordered : e.span.start ≤ e.span.stop := he
  by_cases hat : e.span = ⟨j, j⟩ ∧ i = j
  · obtain ⟨hspan, rfl⟩ := hat
    rw [remapOffset_eq, remapOffset_eq, newStop, hspan, hinsert hspan rfl]
    simp [byteLength]
  · rw [Span.eq_mk_iff] at hat
    rw [remapOffset_eq, remapOffset_eq, newStop]
    simp only [Bool.false_eq_true, false_or, true_or, and_true]
    split_ifs <;> omega

/-- Where a span stays in the word, all spans inside it do. -/
theorem staysInWord_of_contains (hinner : inner.Ordered) (h : outer.contains inner)
    (hword : e.StaysInWord outer) : e.StaysInWord inner := by
  have hordered : inner.start ≤ inner.stop := hinner
  rw [Span.contains_iff] at h
  rw [staysInWord_iff] at *
  omega

theorem not_contains_of_detaches (h : e.Detaches outer inner) :
    ¬ (e.remap outer).contains (e.remap inner) := by
  obtain ⟨hproper, hspan, hinner, htext⟩ := h
  have heq : e = insert outer.stop e.text := by
    rw [insert, ← hspan]
  have hlt : outer.start < outer.stop := hproper
  have hpos := byteLength_pos htext
  have hordered : (e.remap inner).start ≤ (e.remap inner).stop := ordered_remap e inner
  have hstart : (e.remap inner).start = outer.stop + byteLength e.text.toList := by
    rw [remap, heq, remapOffset_insert_start, hinner]
    exact if_pos (Nat.le_refl _)
  have hstop : (e.remap outer).stop = outer.stop := by
    rw [heq, remap_insert hproper]
    exact if_neg (Nat.lt_irrefl _)
  rw [Span.contains_iff]
  omega

theorem contains_remap_iff (he : e.span.Ordered) (hinner : inner.Ordered)
    (h : outer.contains inner) :
    (e.remap outer).contains (e.remap inner) ↔ ¬ e.Detaches outer inner := by
  refine ⟨fun hcontains hdetaches => not_contains_of_detaches hdetaches hcontains, fun hnot => ?_⟩
  obtain ⟨hstart, hstop⟩ := Span.contains_iff.1 h
  have hbehind : inner.start ≤ outer.stop := Nat.le_trans hinner hstop
  refine Span.contains_iff.2 ⟨remapOffset_mono he hstart, Nat.max_le.2 ⟨?_, ?_⟩⟩
  · exact Nat.le_trans (remapOffset_mono he hstop) (Nat.le_max_left _ _)
  · by_cases hproper : outer.Proper
    · refine Nat.le_trans (remapOffset_start_le_stop he hbehind fun hspan hat => ?_)
        (Nat.le_max_left _ _)
      have hend : outer.stop ≤ inner.stop := hat ▸ (show inner.start ≤ inner.stop from hinner)
      have hinner' := Span.eq_mk_iff.2 ⟨hat, Nat.le_antisymm hstop hend⟩
      exact Decidable.byContradiction fun htext => hnot ⟨hproper, hspan, hinner', htext⟩
    · -- an empty span has just one place for another one inside
      have hsame : inner.start = outer.start :=
        Nat.le_antisymm (Nat.le_trans hbehind (Nat.le_of_not_lt hproper)) hstart
      rw [hsame]
      exact Nat.le_max_right _ _

end

/-! ### Edits in a row -/

/-- Where a span has gone after edits in a row. -/
def remapAll (edits : List TextEdit) (s : Span) : Span := edits.foldl (fun s e => e.remap s) s

/-- Where a span has gone in words. -/
def remapAllIn (o : Overflow) (edits : List TextEdit) (s : Span) : Option Span :=
  edits.foldlM (fun s e => e.remapIn o s) s

/-- No edit moves the span, where it has gone by then, out of the word. -/
def StayInWord : List TextEdit → Span → Prop
  | [], _ => True
  | e :: rest, s => e.StaysInWord s ∧ StayInWord rest (e.remap s)

instance decidableStayInWord : (edits : List TextEdit) → (s : Span) → Decidable (StayInWord edits s)
  | [], _ => isTrue trivial
  | e :: rest, s =>
    have := decidableStayInWord rest (e.remap s)
    inferInstanceAs (Decidable (e.StaysInWord s ∧ StayInWord rest (e.remap s)))

theorem remapAll_concat (edits : List TextEdit) (e : TextEdit) (s : Span) :
    remapAll (edits ++ [e]) s = e.remap (remapAll edits s) := by
  rw [remapAll, List.foldl_append]
  rfl

theorem StayInWord.front {before edits : List TextEdit} {s : Span} (h : StayInWord edits s)
    (hbefore : before <+: edits) : StayInWord before s := by
  induction before generalizing edits s with
  | nil => trivial
  | cons e rest ih =>
    obtain ⟨after, rfl⟩ := hbefore
    exact ⟨h.1, ih h.2 (List.prefix_append rest after)⟩

theorem remapAllIn_of_stayInWord {edits : List TextEdit} {s : Span} (h : StayInWord edits s)
    (o : Overflow) : remapAllIn o edits s = some (remapAll edits s) := by
  induction edits generalizing s with
  | nil => rfl
  | cons e rest ih =>
    have hrest : rest.foldlM (fun s e => e.remapIn o s) (e.remap s) = _ := ih h.2
    rw [remapAllIn, List.foldlM_cons, remapIn_of_staysInWord h.1]
    exact hrest

section
variable {edits : List TextEdit} {outer inner : Span}

theorem ordered_remapAll {s : Span} (hs : s.Ordered) : (remapAll edits s).Ordered := by
  induction edits using List.reverseRecOn with
  | nil => exact hs
  | append_singleton edits e _ =>
    rw [remapAll_concat]
    exact ordered_remap e _

/-- One span stays in another one as long as no edit detaches the two where they are by then. -/
theorem forall_contains_remapAll_iff (hedits : ∀ e ∈ edits, e.span.Ordered)
    (hinner : inner.Ordered) (h : outer.contains inner) :
    (∀ before, before <+: edits → (remapAll before outer).contains (remapAll before inner)) ↔
      ∀ before e, before ++ [e] <+: edits →
        ¬ e.Detaches (remapAll before outer) (remapAll before inner) := by
  constructor
  · intro hcontains before e hprefix hdetaches
    refine not_contains_of_detaches hdetaches ?_
    rw [← remapAll_concat, ← remapAll_concat]
    exact hcontains _ hprefix
  · intro hnot before hprefix
    induction before using List.reverseRecOn with
    | nil => exact h
    | append_singleton before e ih =>
      have he : e ∈ edits := hprefix.subset (List.mem_append_right before (List.mem_singleton_self e))
      have hbefore := ih ((List.prefix_append before [e]).trans hprefix)
      rw [remapAll_concat, remapAll_concat,
        contains_remap_iff (hedits e he) (ordered_remapAll hinner) hbefore]
      exact hnot before e hprefix

end

end TextEdit

namespace Document

open TextEdit

/-- Edits one after the other, up to the first that fails. -/
def editAll (d : Document) (edits : List TextEdit) : Except Failure Document :=
  edits.foldlM Document.edit d

variable {d edited : Document} {edits : List TextEdit}

theorem editAll_cons_eq_ok {e : TextEdit} {rest : List TextEdit}
    (h : d.editAll (e :: rest) = .ok edited) :
    ∃ between, d.edit e = .ok between ∧ between.editAll rest = .ok edited := by
  rw [editAll, List.foldlM_cons] at h
  cases hedit : d.edit e with
  | error failure =>
    rw [hedit] at h
    cases h
  | ok between =>
    rw [hedit] at h
    exact ⟨between, rfl, h⟩

theorem moves_of_editAll (h : d.editAll edits = .ok edited) :
    (∀ e ∈ edits, e.span.Ordered) ∧
      edited.invocations = d.invocations.map (fun i => { i with span := remapAll edits i.span }) ∧
      edited.diagnostics = d.diagnostics.map (fun g => { g with span := remapAll edits g.span }) := by
  induction edits generalizing d with
  | nil =>
    cases h
    exact ⟨nofun, (List.map_id _).symm, (List.map_id _).symm⟩
  | cons e rest ih =>
    obtain ⟨between, hedit, hrest⟩ := editAll_cons_eq_ok h
    obtain ⟨hordered, hinvocations, hdiagnostics⟩ := ih hrest
    obtain ⟨happly, hbetween⟩ := edit_eq_ok_iff.1 hedit
    refine ⟨List.forall_mem_cons.2 ⟨(exists_apply_eq_ok_iff.1 ⟨_, happly⟩).ordered, hordered⟩, ?_, ?_⟩
    · rw [hinvocations, hbetween]
      exact List.map_map
    · rw [hdiagnostics, hbetween]
      exact List.map_map

/-- If an edit does not move a span out of the word, then it keeps another span inside it exactly if it
does not detach the two. With edits in a row this goes on as long as none of them detaches the spans
where they are by then. So it is with the calls and the diagnostics of a document, which edits move
span by span. -/
theorem edits_keep_nesting :
    (∀ (e : TextEdit) (outer inner : Span), e.span.Ordered → outer.Ordered → inner.Ordered →
      outer.contains inner → e.StaysInWord outer →
        (∀ o, e.remapIn o outer = some (e.remap outer) ∧ e.remapIn o inner = some (e.remap inner)) ∧
          (e.remap outer).Ordered ∧ (e.remap inner).Ordered ∧
          ((e.remap outer).contains (e.remap inner) ↔ ¬ e.Detaches outer inner)) ∧
    (∀ (edits : List TextEdit) (outer inner : Span), (∀ e ∈ edits, e.span.Ordered) →
      outer.Ordered → inner.Ordered → outer.contains inner →
        StayInWord edits outer → StayInWord edits inner →
        (∀ o before, before <+: edits → remapAllIn o before outer = some (remapAll before outer) ∧
            remapAllIn o before inner = some (remapAll before inner)) ∧
          (remapAll edits outer).Ordered ∧ (remapAll edits inner).Ordered ∧
          ((∀ before, before <+: edits →
              (remapAll before outer).contains (remapAll before inner)) ↔
            ∀ before e, before ++ [e] <+: edits →
              ¬ e.Detaches (remapAll before outer) (remapAll before inner))) ∧
    ∀ (d edited : Document) (edits : List TextEdit), d.editAll edits = .ok edited →
      (∀ s ∈ d.spans, StayInWord edits s) →
        (∀ e ∈ edits, e.span.Ordered) ∧
          (∀ o, ∀ s ∈ d.spans, remapAllIn o edits s = some (remapAll edits s)) ∧
          edited.invocations = d.invocations.map (fun i => { i with span := remapAll edits i.span }) ∧
          edited.diagnostics =
            d.diagnostics.map (fun g => { g with span := remapAll edits g.span }) := by
  refine ⟨?_, ?_, ?_⟩
  · intro e outer inner he _ hinner h hword
    refine ⟨fun o => ⟨remapIn_of_staysInWord hword o, ?_⟩, ordered_remap e outer,
      ordered_remap e inner, contains_remap_iff he hinner h⟩
    exact remapIn_of_staysInWord (staysInWord_of_contains hinner h hword) o
  · intro edits outer inner hedits houter hinner h hword hword'
    refine ⟨fun o before hbefore => ⟨?_, ?_⟩, ordered_remapAll houter, ordered_remapAll hinner,
      forall_contains_remapAll_iff hedits hinner h⟩
    · exact remapAllIn_of_stayInWord (hword.front hbefore) o
    · exact remapAllIn_of_stayInWord (hword'.front hbefore) o
  · intro d edited edits hedit hword
    obtain ⟨hordered, hinvocations, hdiagnostics⟩ := moves_of_editAll hedit
    exact ⟨hordered, fun o s hs => remapAllIn_of_stayInWord (hword s hs) o, hinvocations,
      hdiagnostics⟩

/-- A call with a diagnostic on its method and one at its very end. -/
def marginalDiagnostic : Document where
  path := "calls.json"
  text := "s.Match()"
  invocations := [{ callee := "s.Match", method := "Match", span := ⟨0, 9⟩ }]
  diagnostics := [⟨"CS7036", ⟨2, 7⟩⟩, ⟨"CS7036", ⟨9, 9⟩⟩]

/-- The first diagnostic stays inside the call. The other one does when the call is completed, but
not when text follows the call. -/
theorem edits_keep_nesting_marginalDiagnostic :
    ∃ edited, marginalDiagnostic.editAll [.insert 8 "A: f", .insert 13 ";"] = .ok edited ∧
      edited.invocations.map (·.span) = [⟨0, 13⟩] ∧
      edited.diagnostics.map (·.span) = [⟨2, 7⟩, ⟨14, 14⟩] ∧
      (∀ before, before <+: [.insert 8 "A: f", .insert 13 ";"] →
        (remapAll before ⟨0, 9⟩).contains (remapAll before ⟨2, 7⟩)) ∧
      ((insert 8 "A: f").remap ⟨0, 9⟩).contains ((insert 8 "A: f").remap ⟨9, 9⟩) ∧
      ¬ ((insert 13 ";").remap ⟨0, 13⟩).contains ((insert 13 ";").remap ⟨13, 13⟩) := by
  obtain ⟨hstep, hedits, hdocument⟩ := edits_keep_nesting
  have h : marginalDiagnostic.editAll [.insert 8 "A: f", .insert 13 ";"] = .ok _ := rfl
  obtain ⟨hordered, -, hinvocations, hdiagnostics⟩ := hdocument _ _ _ h (by decide +kernel)
  refine ⟨_, h, by rw [hinvocations]; decide +kernel, by rw [hdiagnostics]; decide +kernel, ?_, ?_, ?_⟩
  · have happart : ∀ before ∈ [insert 8 "A: f", insert 13 ";"].inits,
        ∀ e ∈ [insert 8 "A: f", insert 13 ";"],
          ¬ e.Detaches (remapAll before ⟨0, 9⟩) (remapAll before ⟨2, 7⟩) := by decide +kernel
    refine (hedits _ ⟨0, 9⟩ ⟨2, 7⟩ hordered (by decide) (by decide) (by decide) (by decide +kernel)
      (by decide +kernel)).2.2.2.2 ?_
    intro before e hprefix
    refine happart before ((List.mem_inits _ _).2 ((List.prefix_append before [e]).trans hprefix)) e ?_
    exact hprefix.subset (List.mem_append_right before (List.mem_singleton_self e))
  · exact (hstep _ _ _ (by decide) (by decide) (by decide) (by decide) (by decide)).2.2.2.2 (by decide)
  · rw [(hstep _ _ _ (by decide) (by decide) (by decide) (by decide) (by decide)).2.2.2]
    decide

/-- Not every insertion keeps an empty span at the end of another one. And even where it detaches no
spans, it does not keep a span inside another one that it moves out of the word. -/
theorem insertion_detaches_emptySpan :
    (¬ ∀ (e : TextEdit) (outer inner : Span), e.span.Ordered → outer.Ordered → inner.Ordered →
      outer.contains inner → (e.remap outer).contains (e.remap inner)) ∧
    ¬ ∃ o, ∀ (e : TextEdit) (outer inner : Span), outer.InWord → e.span.Ordered → outer.Ordered →
      inner.Ordered → outer.contains inner → ¬ e.Detaches outer inner →
        ∃ outer' inner', e.remapIn o outer = some outer' ∧ e.remapIn o inner = some inner' ∧
          outer'.contains inner' := by
  constructor
  · intro h
    have hcontains := h (insert 5 "x") ⟨0, 5⟩ ⟨5, 5⟩ (by decide) (by decide) (by decide) (by decide)
    exact absurd hcontains (by decide)
  · rintro ⟨o, h⟩
    obtain ⟨outer', inner', houter, hinner, hcontains⟩ := h (insert 0 "x") ⟨0, maxOffset⟩ ⟨0, 5⟩
      (by decide) (by decide) (by decide) (by decide) (by decide) (by decide)
    cases o with
    | stops => cases houter
    | wraps =>
      obtain rfl : (⟨1, 1⟩ : Span) = outer' := Option.some.inj houter
      obtain rfl : (⟨1, 6⟩ : Span) = inner' := Option.some.inj hinner
      exact absurd hcontains (by decide)

end Document
end CaseUnion
