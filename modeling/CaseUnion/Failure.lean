import CaseUnion.Failure.Cause

/-!
# Failures

A failure is a cause with the span it was found at, a failure put into the context of a source
text, or several failures together. `Failure.flat` takes groups apart; every question about the
whole (`code`, `span`, `message`) is answered by its first cause, `Failure.root?`.
-/

namespace CaseUnion

structure Source where
  name : String
  text : String
  deriving DecidableEq, Repr

structure Label where
  span : Span
  text : String
  deriving DecidableEq, Repr

inductive Failure where
  | plain (cause : Cause) (span : Option Span)
  | context (inner : Failure) (source : Option Source) (labels : List Label)
  | several (members : List Failure)
  deriving Repr, Inhabited

namespace Failure

def of (cause : Cause) : Failure := plain cause none

/-- A failure found at a span; an internal error keeps no span. -/
def located (cause : Cause) (span : Option Span) : Failure :=
  plain cause (if cause.isLocatable then span else none)

def root? : Failure → Option (Cause × Option Span)
  | plain cause span => some (cause, span)
  | context inner _ _ => inner.root?
  | several [] => none
  | several (first :: _) => first.root?

def code (f : Failure) : Code :=
  match f.root? with
  | some (cause, _) => cause.code
  | none => ⟨.internal, 1⟩

def rootMessage (f : Failure) : String :=
  match f.root? with
  | some (cause, _) => cause.message
  | none => ""

/-- A group is announced by its size, unless it has exactly one member. -/
def message : Failure → String
  | several [only] => only.rootMessage
  | several members => s!"{members.length} errors occurred"
  | f => f.rootMessage

def rootSeverity (f : Failure) : Severity :=
  match f.root? with
  | some (cause, _) => cause.severity
  | none => .error

mutual

/-- A group is as severe as its worst member. -/
def severity : Failure → Severity
  | plain cause _ => cause.severity
  | context inner source labels => (context inner source labels).rootSeverity
  | several [] => .error
  | several (first :: rest) => if anyFatal (first :: rest) then .error else .warning

def anyFatal : List Failure → Bool
  | [] => false
  | f :: rest => f.severity.isFatal || anyFatal rest

end

def isFatal (f : Failure) : Bool := f.severity.isFatal

/-- The advice of the first cause; a group gives none. -/
def help : Failure → Option String
  | several _ => none
  | f => f.root?.bind fun (cause, _) => cause.help

def span (f : Failure) : Option Span := f.root?.bind fun (_, span) => span

def display (f : Failure) : String := s!"[{f.code.text}] {f.message}"

/-- Attaches the source text that the spans point into. The first source attached stays. -/
def withSource (f : Failure) (source : Source) : Failure :=
  match f with
  | context inner known labels => context inner (known.or (some source)) labels
  | f => context f (some source) []

def withLabel (f : Failure) (label : Label) : Failure :=
  match f with
  | context inner source labels => context inner source (labels ++ [label])
  | f => context f none [label]

/-- The source of a failure: of nested contexts the innermost that has one. -/
def source? : Failure → Option Source
  | context inner source _ => inner.source?.or source
  | _ => none

def labels : Failure → List Label
  | context inner _ own => inner.labels ++ own
  | _ => []

mutual

/-- The failures of a group, groups within groups taken apart as well. -/
def flat : Failure → List Failure
  | several members => flatAll members
  | f => [f]

def flatAll : List Failure → List Failure
  | [] => []
  | f :: rest => f.flat ++ flatAll rest

end

/-- A label of a report: a text, the place it belongs to, and whether it is the failure's own. -/
structure Mark where
  start : Nat
  length : Nat
  text : String
  isPrimary : Bool
  deriving DecidableEq, Repr

/-- What is shown of a failure. Without a source there are no marks, for they would point at
nothing. -/
structure Report where
  code : String
  message : String
  severity : Severity
  help : Option String
  hasSource : Bool
  marks : Option (List Mark)
  deriving Repr

def report (f : Failure) : Report where
  code := f.code.text
  message := f.message
  severity := f.severity
  help := f.help
  hasSource := f.source?.isSome
  marks := f.source?.map fun _ =>
    (f.span.toList.map fun s => ⟨s.start, s.length, f.message, true⟩) ++
      f.labels.map fun l => ⟨l.span.start, l.span.length, l.text, false⟩

end Failure
end CaseUnion
