import CaseUnion.Proofs.ReceiverUnions
import CaseUnion.Proofs.SpanInsertion

/-!
# Innermost calls

The call around a diagnostic is the shortest `Match` call that contains it, and the first of those
that are equally short (`Document.Innermost`). It is the only one that is looked at: if it cannot be
completed no fix is offered, whatever other calls lie around it (`fixes_complete_innermost_call`).

Of two nested spans the shorter one lies inside of the other. So if the calls are nested or disjoint
the shortest call around a proper span is inside of all others around it (`Innermost.contained`).
-/

namespace CaseUnion

section
variable {α : Type} {key : α → Nat} {xs : List α} {x : α}

theorem firstLeast?_eq_none_iff : firstLeast? key xs = none ↔ xs = [] := by
  cases xs with
  | nil => simp [firstLeast?]
  | cons y rest =>
    simp only [firstLeast?, reduceCtorEq, iff_false]
    cases firstLeast? key rest with
    | none => simp
    | some best =>
      simp only
      split <;> simp

theorem exists_split_of_firstLeast? (h : firstLeast? key xs = some x) :
    ∃ before after, xs = before ++ x :: after ∧ (∀ y ∈ before, key x < key y) ∧
      ∀ y ∈ after, key x ≤ key y := by
  induction xs generalizing x with
  | nil => cases h
  | cons y rest ih =>
    rw [firstLeast?] at h
    cases hrest : firstLeast? key rest with
    | none =>
      rw [hrest] at h
      cases h
      cases firstLeast?_eq_none_iff.1 hrest
      exact ⟨[], [], rfl, by simp, by simp⟩
    | some best =>
      rw [hrest] at h
      obtain ⟨before, after, rfl, hbefore, hafter⟩ := ih hrest
      simp only at h
      split at h
      · rename_i hle
        cases h
        refine ⟨[], before ++ best :: after, rfl, by simp, ?_⟩
        have hbehind : ∀ z ∈ before ++ best :: after, key best ≤ key z := by
          simp only [List.forall_mem_append, List.forall_mem_cons]
          exact ⟨fun z hz => (hbefore z hz).le, le_refl _, hafter⟩
        exact fun z hz => hle.trans (hbehind z hz)
      · rename_i hlt
        cases h
        refine ⟨y :: before, after, rfl, ?_, hafter⟩
        exact List.forall_mem_cons.2 ⟨Nat.lt_of_not_le hlt, hbefore⟩

end

namespace Span

/-- Of two nested spans the shorter one is inside of the other. -/
theorem contains_of_length_le {s t : Span} (hs : s.Proper) (hnested : s.contains t ∨ t.contains s)
    (hle : s.length ≤ t.length) : t.contains s := by
  have hlt : s.start < s.stop := hs
  rcases hnested with h | h
  · rw [contains_iff] at h ⊢
    simp only [length] at hle
    omega
  · exact h

theorem Proper.of_contains {s t : Span} (ht : t.Proper) (h : s.contains t) : s.Proper := by
  rw [contains_iff] at h
  exact h.1.trans_lt (Nat.lt_of_lt_of_le ht h.2)

end Span

namespace Document

/-- A `Match` call of the document whose span contains the one of the diagnostic. -/
structure IsAround (d : Document) (g : HostDiagnostic) (call : Invocation) (position : Nat) :
    Prop where
  at_position : d.invocations[position]? = some call
  method_eq : call.method = "Match"
  contains : call.span.contains g.span

/-- A `Match` call around the diagnostic such that no other one is shorter, and such that those in
front of it are longer. -/
structure Innermost (d : Document) (g : HostDiagnostic) (call : Invocation) (position : Nat) :
    Prop where
  around : d.IsAround g call position
  least : ∀ other k, d.IsAround g other k → call.span.length ≤ other.span.length
  first : ∀ other k, d.IsAround g other k → k < position → call.span.length < other.span.length

/-- Of two `Match` calls of the document one contains the other, or they have no byte in common. -/
def CallsNested (d : Document) : Prop :=
  ∀ call ∈ d.invocations, ∀ other ∈ d.invocations, call.method = "Match" →
    other.method = "Match" → call.span.NestedOrDisjoint other.span

variable {d : Document} {g : HostDiagnostic} {call other : Invocation} {position k : Nat}

theorem IsAround.mem (h : d.IsAround g call position) : call ∈ d.invocations :=
  List.mem_of_getElem? h.at_position

theorem Innermost.unique (h : d.Innermost g call position) (h' : d.Innermost g other k) :
    call = other ∧ position = k := by
  have hposition : position = k := by
    rcases Nat.lt_trichotomy position k with hlt | heq | hlt
    · have hless := h'.first call position h.around hlt
      have hle := h.least other k h'.around
      omega
    · exact heq
    · have hless := h.first other k h'.around hlt
      have hle := h'.least call position h.around
      omega
  subst hposition
  exact ⟨Option.some.inj (h.around.at_position.symm.trans h'.around.at_position), rfl⟩

/-- Where the calls are nested or disjoint, the innermost call around a proper diagnostic is inside
of all others around it. -/
theorem Innermost.contained (h : d.Innermost g call position) (hnested : d.CallsNested)
    (hg : g.span.Proper) (hother : d.IsAround g other k) : other.span.contains call.span := by
  have hproper : call.span.Proper := hg.of_contains h.around.contains
  have hpair := hnested call h.around.mem other hother.mem h.around.method_eq hother.method_eq
  exact Span.contains_of_length_le hproper
    (hpair.nested hg h.around.contains hother.contains) (h.least other k hother)

end Document

namespace Compilation

variable {c : Compilation} {s : Settings} {d : Document} {g : HostDiagnostic} {call : Invocation}
  {position : Nat}

theorem mem_callsAround_iff :
    (call, position) ∈ (d.invocations.zipIdx.filter fun x =>
        x.1.method == "Match" && x.1.span.contains g.span) ↔
      d.IsAround g call position := by
  rw [List.mem_filter, List.mk_mem_zipIdx_iff_getElem?, Bool.and_eq_true, beq_iff_eq]
  constructor
  · rintro ⟨hat, hmethod, hcontains⟩
    exact ⟨hat, hmethod, hcontains⟩
  · rintro ⟨hat, hmethod, hcontains⟩
    exact ⟨hat, hmethod, hcontains⟩

theorem innermost_of_callAround? (h : callAround? d g = some (call, position)) :
    d.Innermost g call position := by
  rw [callAround?_eq] at h
  obtain ⟨before, after, hsplit, hbefore, hafter⟩ := exists_split_of_firstLeast? h
  have hmem : ∀ other k, d.IsAround g other k →
      (other, k) ∈ before ∨ (other, k) = (call, position) ∨ (other, k) ∈ after := by
    intro other k hother
    have hmem := mem_callsAround_iff.2 hother
    rwa [hsplit, List.mem_append, List.mem_cons] at hmem
  have hordered := (pairwise_snd_zipIdx d.invocations).filter fun x =>
    x.1.method == "Match" && x.1.span.contains g.span
  rw [hsplit, List.pairwise_append, List.pairwise_cons] at hordered
  constructor
  case around => exact mem_callsAround_iff.1 (mem_of_firstLeast? h)
  case least =>
    intro other k hother
    rcases hmem other k hother with hother | hother | hother
    · exact (hbefore _ hother).le
    · cases hother
      exact le_refl _
    · exact hafter _ hother
  case first =>
    intro other k hother hlt
    rcases hmem other k hother with hother | hother | hother
    · exact hbefore _ hother
    · cases hother
      exact absurd hlt (lt_irrefl _)
    · have hbehind : position < k := hordered.2.1.1 _ hother
      omega

theorem callAround?_eq_some_iff :
    callAround? d g = some (call, position) ↔ d.Innermost g call position := by
  constructor
  · exact innermost_of_callAround?
  · intro h
    cases haround : callAround? d g with
    | none =>
      rw [callAround?_eq, firstLeast?_eq_none_iff] at haround
      have hmem := mem_callsAround_iff.2 h.around
      rw [haround] at hmem
      cases hmem
    | some x =>
      obtain ⟨heq, heq'⟩ := (innermost_of_callAround? haround).unique h
      rw [← heq, ← heq']

theorem exists_innermost_of_fixFor? {fix : CodeFix} (h : c.fixFor? s d g = some fix) :
    ∃ call, d.Innermost g call fix.invocation := by
  rw [fixFor?_eq] at h
  split at h
  · obtain ⟨⟨call, position⟩, haround, hfix⟩ := Option.bind_eq_some_iff.1 h
    obtain ⟨x, -, rfl⟩ := Option.map_eq_some_iff.1 hfix
    exact ⟨call, innermost_of_callAround? haround⟩
  · cases h

theorem exists_completion?_iff_of_receiver :
    (∃ x, c.completion? s d call = some x) ↔
      ∃ u, c.receiverUnion? s d call = some u ∧ (∃ k ∈ u.cases, ¬ call.Covers u k) ∧
        d.EndsInParenthesis call := by
  constructor
  · rintro ⟨x, hx⟩
    obtain ⟨u, -, hu, -⟩ := completion?_eq_some_iff.1 hx
    exact ⟨u, hu, (exists_completion?_iff hu).1 ⟨x, hx⟩⟩
  · rintro ⟨u, hu, h⟩
    exact (exists_completion?_iff hu).2 h

/-- A fix for a diagnostic completes the innermost call around it. None is offered if this call has
no union, lacks nothing, or does not end in a parenthesis, whatever the calls around it lack. -/
theorem fixes_complete_innermost_call (c : Compilation) (s : Settings) (d : Document)
    (g : HostDiagnostic) (hid : g.id = s.diagnosticId) :
    (∀ fix, c.fixFor? s d g = some fix → ∃ call, d.Innermost g call fix.invocation ∧
      (g.span.Proper → d.CallsNested →
        ∀ other k, d.IsAround g other k → other.span.contains call.span)) ∧
    (∀ call position, d.Innermost g call position →
      ((∃ fix, c.fixFor? s d g = some fix) ↔
        ∃ u, c.receiverUnion? s d call = some u ∧ (∃ k ∈ u.cases, ¬ call.Covers u k) ∧
          d.EndsInParenthesis call)) ∧
    (g ∈ d.diagnostics → ∀ fix, fix ∈ c.fixes s d ∧ fix.resolves = g ↔ c.fixFor? s d g = some fix) := by
  refine ⟨?_, ?_, fun hg fix => mem_fixes_resolving_iff hg⟩
  · intro fix hfix
    obtain ⟨call, hinnermost⟩ := exists_innermost_of_fixFor? hfix
    exact ⟨call, hinnermost, fun hproper hnested other k hother =>
      hinnermost.contained hnested hproper hother⟩
  · intro call position hinnermost
    rw [fixFor?_of_callAround? hid (callAround?_eq_some_iff.2 hinnermost),
      ← exists_completion?_iff_of_receiver]
    simp only [Option.map_eq_some_iff]
    exact ⟨fun ⟨_, x, hx, _⟩ => ⟨x, hx⟩, fun ⟨x, hx⟩ => ⟨_, x, hx, rfl⟩⟩

def lackingCall : Invocation :=
  { callee := "s.Match", method := "Match", receiver := some (.simple "Shape"),
    arguments := [⟨some "A", "() => s.Match(A: f, B: g)"⟩], span := ⟨0, 37⟩ }

def coveringCall : Invocation :=
  { callee := "s.Match", method := "Match", receiver := some (.simple "Shape"),
    arguments := [⟨some "A", "f"⟩, ⟨some "B", "g"⟩], span := ⟨17, 36⟩ }

/-- One call inside of the other, with a diagnostic for each. -/
def coveredInside : Document :=
  { splitShape [["A", "B"]] with
    text := "s.Match(A: () => s.Match(A: f, B: g))"
    invocations := [lackingCall, coveringCall]
    diagnostics := [⟨"CS7036", ⟨0, 7⟩⟩, ⟨"CS7036", ⟨17, 24⟩⟩] }

/-- Nothing is offered for the call inside, although the one around it could be completed. -/
theorem fixes_complete_coveredInside :
    coveredInside.Innermost ⟨"CS7036", ⟨17, 24⟩⟩ coveringCall 1 ∧
      (coveredInside.IsAround ⟨"CS7036", ⟨17, 24⟩⟩ lackingCall 0 ∧
        ∃ x, (ofDocuments [coveredInside]).completion? {} coveredInside lackingCall = some x) ∧
      (¬ ∃ fix, (ofDocuments [coveredInside]).fixFor? {} coveredInside ⟨"CS7036", ⟨17, 24⟩⟩ =
        some fix) ∧
      ∃ fix ∈ (ofDocuments [coveredInside]).fixes {} coveredInside,
        fix.resolves = ⟨"CS7036", ⟨0, 7⟩⟩ ∧ coveredInside.Innermost fix.resolves lackingCall 0 := by
  have hinnermost : coveredInside.Innermost ⟨"CS7036", ⟨17, 24⟩⟩ coveringCall 1 :=
    callAround?_eq_some_iff.1 rfl
  have houtermost : coveredInside.Innermost ⟨"CS7036", ⟨0, 7⟩⟩ lackingCall 0 :=
    callAround?_eq_some_iff.1 rfl
  obtain ⟨u, hcovering, hlacking, hnames⟩ :
      ∃ u, (ofDocuments [coveredInside]).receiverUnion? {} coveredInside coveringCall = some u ∧
        (ofDocuments [coveredInside]).receiverUnion? {} coveredInside lackingCall = some u ∧
        u.cases.map (·.name) = ["A", "B"] :=
    ⟨_, rfl, rfl, rfl⟩
  have huncovered : ∃ k ∈ u.cases, ¬ lackingCall.Covers u k := by
    obtain ⟨k, hk, hname⟩ := List.mem_map.1 (show "B" ∈ u.cases.map (·.name) by simp [hnames])
    exact ⟨k, hk, by simp [Invocation.Covers, Invocation.positionalCount, lackingCall, hname]⟩
  have hends : coveredInside.EndsInParenthesis lackingCall :=
    ⟨"s.Match(A: () => s.Match(A: f, B: g))", by decide +kernel, by decide +kernel⟩
  obtain ⟨-, hinner, -⟩ := fixes_complete_innermost_call (ofDocuments [coveredInside]) {}
    coveredInside ⟨"CS7036", ⟨17, 24⟩⟩ rfl
  obtain ⟨-, houter, hfixes⟩ := fixes_complete_innermost_call (ofDocuments [coveredInside]) {}
    coveredInside ⟨"CS7036", ⟨0, 7⟩⟩ rfl
  refine ⟨hinnermost, ⟨⟨rfl, rfl, by decide⟩,
    exists_completion?_iff_of_receiver.2 ⟨u, hlacking, huncovered, hends⟩⟩, ?_, ?_⟩
  · rw [hinner _ _ hinnermost]
    rintro ⟨v, hv, ⟨k, hk, hnot⟩, -⟩
    cases hcovering.symm.trans hv
    have hname := List.mem_map_of_mem (f := (·.name)) hk
    rw [hnames] at hname
    apply hnot
    simpa [Invocation.Covers, Invocation.positionalCount, coveringCall] using hname
  · obtain ⟨fix, hfix⟩ := (houter _ _ houtermost).2 ⟨u, hlacking, huncovered, hends⟩
    obtain ⟨hmem, hresolves⟩ := (hfixes List.mem_cons_self fix).2 hfix
    exact ⟨fix, hmem, hresolves, hresolves ▸ houtermost⟩

end Compilation
end CaseUnion
