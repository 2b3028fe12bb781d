import CaseUnion.Extraction
import CaseUnion.Text.Blank

/-!
# Completing calls

A `Match` call that the host reports as incomplete is completed by one named placeholder for each
case that no argument covers. A fix is offered for the innermost call around a diagnostic; applying
it consumes the diagnostic (`CodeFix.length_diagnostics_lt`), so applying fixes until none is
offered ends.
-/

namespace CaseUnion

/-- A callback with as many inputs as a case has parameters, whose body always throws. -/
def placeholder (arity : Nat) : String :=
  let inputs :=
    match arity with
    | 0 => "()"
    | 1 => "arg"
    | n => "(" ++ ", ".intercalate ((List.range n).map fun i => s!"arg{i + 1}") ++ ")"
  inputs ++ " => throw new System.NotImplementedException()"

/-- The arguments that a call lacks: one for each case that is covered neither by a positional nor
by a named argument, in declared order. -/
def missingArguments (u : UnionType) (call : Invocation) : List Argument :=
  (u.cases.zipIdx.filter fun (c, position) =>
    call.positionalCount ≤ position && !call.namedArguments.contains c.name).map
      fun (c, _) => ⟨some c.name, placeholder c.arity⟩

def firstLeast? {α : Type} (key : α → Nat) : List α → Option α
  | [] => none
  | x :: rest =>
    match firstLeast? key rest with
    | none => some x
    | some best => if key x ≤ key best then some x else some best

def lastGreatest? {α : Type} (key : α → Nat) : List α → Option α
  | [] => none
  | x :: rest =>
    match lastGreatest? key rest with
    | none => some x
    | some best => if key x ≤ key best then some best else some x

theorem mem_of_lastGreatest? {α : Type} {key : α → Nat} {xs : List α} {x : α}
    (h : lastGreatest? key xs = some x) : x ∈ xs := by
  induction xs with
  | nil => simp [lastGreatest?] at h
  | cons y rest ih =>
    simp only [lastGreatest?] at h
    split at h
    · simp_all
    · rename_i best hbest
      split at h
      · cases h
        exact List.mem_cons_of_mem _ (ih hbest)
      · simp_all

/-- The insertion that puts arguments in front of the closing parenthesis of a call. There is none
if the text of the call does not end in a parenthesis. -/
def completionEdit? (d : Document) (call : Invocation) (arguments : List Argument) :
    Option TextEdit :=
  match d.slice? call.span with
  | none => none
  | some text =>
    let trimmed := Text.trimEnd text.toList
    if trimmed.getLast? = some ')' then
      let list := ", ".intercalate (arguments.map (·.render))
      some (.insert (call.span.start + (Text.byteLength trimmed - 1))
        (if call.arguments.isEmpty then list else ", " ++ list))
    else none

structure CodeFix where
  title : String
  /-- The source name of the document. -/
  document : String
  /-- The position of the call in the document. -/
  invocation : Nat
  resolves : HostDiagnostic
  appended : List Argument
  edit : TextEdit
  deriving Repr

namespace CodeFix

def apply (fix : CodeFix) (d : Document) : Except Failure Document :=
  if fix.invocation < d.invocations.length then
    { d with
      diagnostics := d.diagnostics.filter (· != fix.resolves)
      invocations := d.invocations.modify fix.invocation fun call =>
        { call with arguments := call.arguments ++ fix.appended } }.edit fix.edit
  else
    .error (.of (.internal s!"invocation {fix.invocation} is not part of '{d.sourceName}'"))

theorem length_diagnostics_of_apply {fix : CodeFix} {d fixed : Document}
    (h : fix.apply d = .ok fixed) :
    fixed.diagnostics.length = (d.diagnostics.filter (· != fix.resolves)).length := by
  unfold apply at h
  split at h
  · simp only [Document.edit, bind, Except.bind] at h
    split at h
    · simp at h
    · simp only [pure, Except.pure, Except.ok.injEq] at h
      subst h
      simp [Document.mapSpans]
  · simp at h

theorem length_diagnostics_lt {fix : CodeFix} {d fixed : Document}
    (hmem : fix.resolves ∈ d.diagnostics) (h : fix.apply d = .ok fixed) :
    fixed.diagnostics.length < d.diagnostics.length := by
  rw [length_diagnostics_of_apply h]
  exact List.length_filter_lt_length_iff_exists.2 ⟨fix.resolves, hmem, by simp⟩

end CodeFix

namespace Compilation

def receiverUnion? (c : Compilation) (s : Settings) (d : Document) (call : Invocation) :
    Option UnionType := do
  let receiver ← call.receiver
  let (_, entry) ← (c.lookup receiver d.nameSpace).find? fun (_, e) => (s.eligible? e.decl).isSome
  let home ← c.documentOf? entry
  match s.extract home entry with
  | .ok union? => union?
  | .error _ => none

/-- The shortest dispatch call around a diagnostic, with its position; of equals the first. -/
def callAround? (d : Document) (diagnostic : HostDiagnostic) : Option (Invocation × Nat) :=
  firstLeast? (fun (call, _) => call.span.length) <|
    d.invocations.zipIdx.filter fun (call, _) =>
      call.method == "Match" && call.span.contains diagnostic.span

def fixFor? (c : Compilation) (s : Settings) (d : Document) (diagnostic : HostDiagnostic) :
    Option CodeFix :=
  if diagnostic.id = s.diagnosticId then do
    let (call, position) ← callAround? d diagnostic
    let u ← c.receiverUnion? s d call
    let appended := missingArguments u call
    if appended.isEmpty then none
    else do
      let edit ← completionEdit? d call appended
      return ⟨"Implement missing union cases.", d.sourceName, position, diagnostic, appended, edit⟩
  else none

/-- The fixes offered for a document, one at most for each diagnostic. -/
def fixes (c : Compilation) (s : Settings) (d : Document) : List CodeFix :=
  d.diagnostics.filterMap (c.fixFor? s d)

theorem resolves_of_fixFor? {c : Compilation} {s : Settings} {d : Document}
    {diagnostic : HostDiagnostic} {fix : CodeFix} (h : c.fixFor? s d diagnostic = some fix) :
    fix.resolves = diagnostic := by
  simp only [fixFor?] at h
  split at h
  · simp only [Option.bind_eq_bind, Option.bind_eq_some_iff] at h
    obtain ⟨_, _, _, _, h⟩ := h
    split at h
    · simp at h
    · obtain ⟨_, _, h⟩ := Option.bind_eq_some_iff.1 h
      cases h
      rfl
  · simp at h

theorem resolves_mem_of_mem_fixes {c : Compilation} {s : Settings} {d : Document} {fix : CodeFix}
    (h : fix ∈ c.fixes s d) : fix.resolves ∈ d.diagnostics := by
  obtain ⟨diagnostic, hmem, hfix⟩ := List.mem_filterMap.1 h
  rw [resolves_of_fixFor? hfix]
  exact hmem

/-- Applies fixes until none is offered, each time the one furthest back in the text. -/
def fixAll (c : Compilation) (s : Settings) (d : Document) : Except Failure Document :=
  match _hnext : lastGreatest? (fun fix => fix.edit.span.start) (c.fixes s d) with
  | none => .ok d
  | some fix =>
    match _happly : fix.apply d with
    | .error failure => .error failure
    | .ok fixed => c.fixAll s fixed
termination_by d.diagnostics.length
decreasing_by
  exact CodeFix.length_diagnostics_lt
    (resolves_mem_of_mem_fixes (mem_of_lastGreatest? _hnext)) _happly

end Compilation
end CaseUnion
