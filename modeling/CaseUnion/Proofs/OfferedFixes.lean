import Mathlib.Data.List.Nodup
import CaseUnion.Proofs.ClosingParenthesis
import CaseUnion.Proofs.ExtractedUnions

/-!
# Offered fixes

A fix depends on its diagnostic only through the call around it. `Compilation.completion?` is the
part that depends on the call alone: the arguments that the call lacks, and their insertion in front
of the closing parenthesis (`completion?_eq_some_iff`). A call that was given its missing arguments
lacks none (`missingArguments_eq_nil`).
-/

namespace CaseUnion

section
variable {α β : Type} {key : α → Nat} {key' : β → Nat}

theorem mem_of_firstLeast? {xs : List α} {x : α} (h : firstLeast? key xs = some x) : x ∈ xs := by
  induction xs generalizing x with
  | nil => simp [firstLeast?] at h
  | cons y rest ih =>
    simp only [firstLeast?] at h
    split at h
    · simp_all
    · rename_i best hbest
      split at h
      · simp_all
      · cases h
        exact List.mem_cons_of_mem _ (ih hbest)

theorem firstLeast?_map {f : α → β} {xs : List α}
    (h : ∀ x ∈ xs, ∀ y ∈ xs, key' (f x) ≤ key' (f y) ↔ key x ≤ key y) :
    firstLeast? key' (xs.map f) = (firstLeast? key xs).map f := by
  induction xs with
  | nil => rfl
  | cons x rest ih =>
    have hrest := ih fun y hy z hz => h y (List.mem_cons_of_mem x hy) z (List.mem_cons_of_mem x hz)
    rw [List.map_cons, firstLeast?, firstLeast?, hrest]
    cases hbest : firstLeast? key rest with
    | none => rfl
    | some best =>
      have hiff := h x List.mem_cons_self best (List.mem_cons_of_mem x (mem_of_firstLeast? hbest))
      by_cases hle : key x ≤ key best
      · simp only [Option.map_some, if_pos hle, if_pos (hiff.2 hle)]
      · simp only [Option.map_some, if_neg hle, if_neg (fun hle' => hle (hiff.1 hle'))]

end

/-- Named arguments leave the number of positional ones. -/
theorem positionalCount_of_completed {u : UnionType} {call completed : Invocation}
    (h : completed.arguments = call.arguments ++ missingArguments u call) :
    completed.positionalCount = call.positionalCount := by
  have hnamed : (missingArguments u call).countP (·.name.isNone) = 0 := by
    rw [List.countP_eq_zero]
    intro a ha
    obtain ⟨_, -, rfl⟩ := List.mem_map.1 ha
    exact Bool.false_ne_true
  rw [Invocation.positionalCount, h, List.countP_append, hnamed]
  rfl

theorem missingArguments_eq_nil {u : UnionType} (call : Invocation) {completed : Invocation}
    (h : completed.arguments = call.arguments ++ missingArguments u call) :
    missingArguments u completed = [] := by
  have hnames : completed.namedArguments =
      call.namedArguments ++ (missingArguments u call).filterMap (·.name) := by
    rw [Invocation.namedArguments, h, List.filterMap_append, Invocation.namedArguments]
  rw [missingArguments, List.map_eq_nil_iff, List.filter_eq_nil_iff]
  rintro ⟨k, i⟩ hk hmissing
  simp only [Bool.and_eq_true, decide_eq_true_eq, Bool.not_eq_true', hnames,
    positionalCount_of_completed h] at hmissing
  obtain ⟨hposition, hnot⟩ := hmissing
  have hname : k.name ∉ call.namedArguments ++ (missingArguments u call).filterMap (·.name) := by
    simpa using hnot
  apply hname
  by_cases hmem : k.name ∈ call.namedArguments
  · exact List.mem_append_left _ hmem
  · apply List.mem_append_right
    refine List.mem_filterMap.2 ⟨⟨some k.name, placeholder k.arity⟩, ?_, rfl⟩
    refine List.mem_map.2 ⟨(k, i), List.mem_filter.2 ⟨hk, ?_⟩, rfl⟩
    simpa [hposition] using hmem

def Invocation.Covers (call : Invocation) (u : UnionType) (k : UnionCase) : Prop :=
  (∃ position < call.positionalCount, u.cases[position]? = some k) ∨
    some k.name ∈ call.arguments.map (·.name)

/-- The arguments are one named placeholder for each case that the call does not cover, once each,
in declared order. -/
def UnionType.FillsIn (u : UnionType) (call : Invocation) (appended : List Argument) : Prop :=
  ∃ uncovered : List UnionCase, uncovered.Sublist u.cases ∧
    (∀ k, k ∈ uncovered ↔ k ∈ u.cases ∧ ¬ call.Covers u k) ∧ (uncovered.map (·.name)).Nodup ∧
    appended = uncovered.map fun k => ⟨some k.name, placeholder k.arity⟩

/-- A call lacks an argument for a case, which is given with its position. -/
def Invocation.lacks (call : Invocation) (x : UnionCase × Nat) : Bool :=
  call.positionalCount ≤ x.2 && !call.namedArguments.contains x.1.name

section
variable {u : UnionType} {call : Invocation} {k : UnionCase} {position : Nat}

/-- A case with a name of its own is covered by its position or by its name. -/
theorem covers_iff_of_getElem? (h : (u.cases.map (·.name)).Nodup)
    (hat : u.cases[position]? = some k) :
    call.Covers u k ↔ position < call.positionalCount ∨ k.name ∈ call.namedArguments := by
  have hnamed : some k.name ∈ call.arguments.map (·.name) ↔ k.name ∈ call.namedArguments := by
    simp [Invocation.namedArguments, List.mem_filterMap]
  rw [Invocation.Covers, hnamed]
  refine or_congr_left ⟨?_, fun hlt => ⟨position, hlt, hat⟩⟩
  rintro ⟨other, hlt, hother⟩
  have hlength : other < u.cases.length := (List.getElem?_eq_some_iff.1 hother).1
  have hsame : other = position :=
    (List.getElem?_inj hlength (List.Nodup.of_map _ h)).1 (hother.trans hat.symm)
  exact hsame ▸ hlt

theorem lacks_iff (h : (u.cases.map (·.name)).Nodup) (hat : u.cases[position]? = some k) :
    call.lacks (k, position) ↔ ¬ call.Covers u k := by
  rw [covers_iff_of_getElem? h hat, not_or, Nat.not_lt]
  simp [Invocation.lacks]

end

theorem fillsIn_missingArguments {u : UnionType} (call : Invocation)
    (h : (u.cases.map (·.name)).Nodup) : u.FillsIn call (missingArguments u call) := by
  have hsublist : ((u.cases.zipIdx.filter call.lacks).map Prod.fst).Sublist u.cases := by
    have hmap := (List.filter_sublist (p := call.lacks) (l := u.cases.zipIdx)).map Prod.fst
    rwa [List.zipIdx_map_fst] at hmap
  refine ⟨(u.cases.zipIdx.filter call.lacks).map Prod.fst, hsublist, ?_, ?_, ?_⟩
  · intro k
    constructor
    · intro hk
      obtain ⟨⟨k', position⟩, hmem, rfl⟩ := List.mem_map.1 hk
      obtain ⟨hmem, hlacks⟩ := List.mem_filter.1 hmem
      have hat := List.mk_mem_zipIdx_iff_getElem?.1 hmem
      exact ⟨List.mem_of_getElem? hat, (lacks_iff h hat).1 hlacks⟩
    · rintro ⟨hk, hnot⟩
      obtain ⟨position, hat⟩ := List.mem_iff_getElem?.1 hk
      refine List.mem_map.2 ⟨(k, position), List.mem_filter.2 ⟨?_, ?_⟩, rfl⟩
      · exact List.mk_mem_zipIdx_iff_getElem?.2 hat
      · exact (lacks_iff h hat).2 hnot
  · exact h.sublist (hsublist.map _)
  · rw [List.map_map]
    rfl

theorem missingArguments_ne_nil_iff {u : UnionType} (call : Invocation)
    (h : (u.cases.map (·.name)).Nodup) :
    missingArguments u call ≠ [] ↔ ∃ k ∈ u.cases, ¬ call.Covers u k := by
  obtain ⟨uncovered, _, hmem, _, heq⟩ := fillsIn_missingArguments call h
  rw [heq, Ne, List.map_eq_nil_iff, ← Ne]
  constructor
  · intro hne
    obtain ⟨k, hk⟩ := List.exists_mem_of_ne_nil _ hne
    exact ⟨k, (hmem k).1 hk⟩
  · rintro ⟨k, hk⟩
    exact List.ne_nil_of_mem ((hmem k).2 hk)

theorem missingArguments_congr {u : UnionType} {call call' : Invocation}
    (h : call'.arguments = call.arguments) : missingArguments u call' = missingArguments u call := by
  unfold missingArguments Invocation.positionalCount Invocation.namedArguments
  rw [h]

theorem completionText_congr {call call' : Invocation} {appended : List Argument}
    (h : call'.arguments = call.arguments) :
    completionText call' appended = completionText call appended := by
  simp only [completionText, h]

namespace Compilation

theorem nodup_names_of_receiverUnion? {c : Compilation} {s : Settings} {d : Document}
    {call : Invocation} {u : UnionType} (h : c.receiverUnion? s d call = some u) :
    (u.cases.map (·.name)).Nodup := by
  simp only [receiverUnion?, Option.bind_eq_bind, Option.bind_eq_some_iff] at h
  obtain ⟨_, _, ⟨_, e⟩, _, home, _, h⟩ := h
  split at h
  · rename_i union? hextract
    subst h
    exact Settings.nodup_names_of_extract hextract
  · cases h

/-- What completes a call: the arguments that it lacks and the insertion of these arguments. -/
def completion? (c : Compilation) (s : Settings) (d : Document) (call : Invocation) :
    Option (List Argument × TextEdit) :=
  (c.receiverUnion? s d call).bind fun u =>
    if (missingArguments u call).isEmpty then none
    else (completionEdit? d call (missingArguments u call)).map (missingArguments u call, ·)

theorem fixFor?_eq (c : Compilation) (s : Settings) (d : Document) (g : HostDiagnostic) :
    c.fixFor? s d g =
      if g.id = s.diagnosticId then
        (callAround? d g).bind fun (call, position) =>
          (c.completion? s d call).map fun (appended, e) =>
            ⟨"Implement missing union cases.", d.sourceName, position, g, appended, e⟩
      else none := by
  rw [fixFor?]
  split
  · cases callAround? d g with
    | none => rfl
    | some around =>
      obtain ⟨call, position⟩ := around
      simp only [Option.bind_eq_bind, Option.bind_some, completion?]
      cases c.receiverUnion? s d call with
      | none => rfl
      | some u =>
        simp only [Option.bind_some]
        split
        · rfl
        · cases completionEdit? d call (missingArguments u call) <;> rfl
  · rfl

theorem completion?_eq_some_iff {c : Compilation} {s : Settings} {d : Document} {call : Invocation}
    {appended : List Argument} {e : TextEdit} :
    c.completion? s d call = some (appended, e) ↔
      ∃ u n, c.receiverUnion? s d call = some u ∧ appended = missingArguments u call ∧
        appended ≠ [] ∧ Text.ClosesAt call.span d.text.toList n ∧
        e = .insert n (completionText call appended) := by
  rw [completion?, Option.bind_eq_some_iff]
  constructor
  · rintro ⟨u, hu, h⟩
    split at h
    · cases h
    · rename_i hempty
      obtain ⟨e', hedit, heq⟩ := Option.map_eq_some_iff.1 h
      cases heq
      obtain ⟨n, hclose, rfl⟩ := completionEdit?_eq_some_iff.1 hedit
      exact ⟨u, n, hu, rfl, fun hnil => hempty (List.isEmpty_iff.2 hnil), hclose, rfl⟩
  · rintro ⟨u, n, hu, rfl, hne, hclose, rfl⟩
    refine ⟨u, hu, ?_⟩
    rw [if_neg (fun hempty => hne (List.isEmpty_iff.1 hempty)),
      completionEdit?_eq_some_iff.2 ⟨n, hclose, rfl⟩]
    rfl

theorem callAround?_eq (d : Document) (g : HostDiagnostic) :
    callAround? d g = firstLeast? (fun x => x.1.span.length)
      (d.invocations.zipIdx.filter fun x => x.1.method == "Match" && x.1.span.contains g.span) :=
  rfl

theorem mem_of_callAround? {d : Document} {g : HostDiagnostic} {call : Invocation} {position : Nat}
    (h : callAround? d g = some (call, position)) :
    d.invocations[position]? = some call ∧ call.method = "Match" ∧ call.span.contains g.span := by
  obtain ⟨hmem, hcall⟩ := List.mem_filter.1 (mem_of_firstLeast? h)
  simp only [Bool.and_eq_true, beq_iff_eq] at hcall
  exact ⟨List.mk_mem_zipIdx_iff_getElem?.1 hmem, hcall⟩

/-- What is known of an offered fix: it completes a `Match` call of the document, and it is offered
for a diagnostic with the configured id. -/
theorem exists_of_mem_fixes {c : Compilation} {s : Settings} {d : Document} {fix : CodeFix}
    (h : fix ∈ c.fixes s d) :
    fix.resolves ∈ d.diagnostics ∧ fix.resolves.id = s.diagnosticId ∧
      ∃ call, d.invocations[fix.invocation]? = some call ∧ call.method = "Match" ∧
        c.completion? s d call = some (fix.appended, fix.edit) := by
  obtain ⟨g, hg, hfix⟩ := List.mem_filterMap.1 h
  rw [fixFor?_eq] at hfix
  split at hfix
  · rename_i hid
    obtain ⟨⟨call, position⟩, haround, hfix⟩ := Option.bind_eq_some_iff.1 hfix
    obtain ⟨⟨appended, e⟩, hcompletion, rfl⟩ := Option.map_eq_some_iff.1 hfix
    obtain ⟨hcall, hmethod, _⟩ := mem_of_callAround? haround
    exact ⟨hg, hid, call, hcall, hmethod, hcompletion⟩
  · cases hfix

end Compilation
end CaseUnion
