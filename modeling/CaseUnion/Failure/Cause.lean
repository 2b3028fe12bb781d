import CaseUnion.Span

/-!
# What can go wrong

Every failure has a cause, and every cause has a code: the two letters of its domain and a number.
`Cause.message` is the one place where the wording stands.
-/

namespace CaseUnion

/-- The area a cause belongs to, in the order in which codes are sorted. -/
inductive Domain where
  | usage | extraction | dispatch | document | filesystem | internal
  deriving DecidableEq, Repr

namespace Domain

def letters : Domain → String
  | usage => "DU"
  | extraction => "DX"
  | dispatch => "DR"
  | document => "DF"
  | filesystem => "FS"
  | internal => "IN"

def position : Domain → Nat
  | usage => 0
  | extraction => 1
  | dispatch => 2
  | document => 3
  | filesystem => 4
  | internal => 5

end Domain

structure Code where
  domain : Domain
  number : Nat
  deriving DecidableEq, Repr

namespace Code

def text (c : Code) : String := c.domain.letters ++ toString c.number

/-- Codes are sorted by domain, then by number. -/
def precedes (c d : Code) : Bool :=
  c.domain.position < d.domain.position ||
    (c.domain.position == d.domain.position && c.number ≤ d.number)

end Code

inductive Severity where
  | error | warning
  deriving DecidableEq, Repr

namespace Severity

/-- Errors stop the compilation, warnings do not. -/
def isFatal : Severity → Bool
  | error => true
  | warning => false

def text : Severity → String
  | error => "Error"
  | warning => "Warning"

end Severity

inductive Cause where
  /-- A union is initialized by a default expression or by a constructor. -/
  | defaultInitialization
  | unresolvedParameter (unionName caseName parameter : String)
  | duplicateCase (unionName caseName : String)
  | duplicateParameter (unionName caseName parameter : String)
  | unknownCase (unionName caseName : String)
  | arityMismatch (unionName caseName : String) (expected found : Nat)
  | missingHandlers (unionName : String) (cases : List String)
  /-- A union with one case has no dispatch with a default handler. -/
  | defaultUnavailable (unionName : String)
  | duplicateHandler (unionName caseName : String)
  | unsupportedFormat (path : String)
  | invalidTypeRef (text reason : String)
  | spanOutOfRange (start stop length : Nat)
  | malformedDocument (path reason : String)
  | invalidGlob (reason : String)
  | fileNotFound (path : String)
  | inputOutput (reason : String)
  /-- A configuration cannot be read as settings. -/
  | configuration (file reason : String)
  /-- A configuration has settings that are not allowed. -/
  | invalidConfiguration (file reason : String)
  | internal (reason : String)
  /-- The type is not a declaration, so nothing can re-open it. -/
  | notDeclarable (name : String)
  | unreachable (location : String)
  deriving DecidableEq, Repr

namespace Cause

def code : Cause → Code
  | defaultInitialization => ⟨.usage, 1⟩
  | unresolvedParameter .. => ⟨.extraction, 1⟩
  | duplicateCase .. => ⟨.extraction, 2⟩
  | duplicateParameter .. => ⟨.extraction, 3⟩
  | unknownCase .. => ⟨.dispatch, 1⟩
  | arityMismatch .. => ⟨.dispatch, 2⟩
  | missingHandlers .. => ⟨.dispatch, 3⟩
  | defaultUnavailable .. => ⟨.dispatch, 4⟩
  | duplicateHandler .. => ⟨.dispatch, 5⟩
  | unsupportedFormat .. => ⟨.document, 1⟩
  | invalidTypeRef .. => ⟨.document, 2⟩
  | spanOutOfRange .. => ⟨.document, 3⟩
  | malformedDocument .. => ⟨.document, 4⟩
  | invalidGlob .. => ⟨.filesystem, 1⟩
  | fileNotFound .. => ⟨.filesystem, 2⟩
  | inputOutput .. | configuration .. | invalidConfiguration .. => ⟨.filesystem, 3⟩
  | internal .. => ⟨.internal, 1⟩
  | notDeclarable .. => ⟨.internal, 2⟩
  | unreachable .. => ⟨.internal, 3⟩

def message : Cause → String
  | defaultInitialization =>
    "discriminated union types are not allowed to be initialized by a default expression or by a constructor"
  | unresolvedParameter u c p =>
    s!"failed to resolve the type of parameter '{p}' of case '{c}' in union '{u}'"
  | duplicateCase u c => s!"union '{u}' declares case '{c}' more than once"
  | duplicateParameter u c p =>
    s!"case '{c}' of union '{u}' declares parameter '{p}' more than once"
  | unknownCase u c => s!"union '{u}' has no case named '{c}'"
  | arityMismatch u c expected found =>
    s!"case '{c}' of union '{u}' takes {expected} argument(s), found {found}"
  | missingHandlers u cases =>
    s!"dispatch over '{u}' is missing handlers for: " ++ ", ".intercalate cases
  | defaultUnavailable u => s!"union '{u}' has a single case and no default dispatch"
  | duplicateHandler u c => s!"dispatch over '{u}' has more than one handler for '{c}'"
  | unsupportedFormat path => s!"unsupported document format: {path}"
  | invalidTypeRef text reason => s!"invalid type reference '{text}': {reason}"
  | spanOutOfRange start stop length =>
    s!"span {start}..{stop} does not fit a document of {length} bytes"
  | malformedDocument path reason => s!"malformed document '{path}': {reason}"
  | invalidGlob reason => s!"glob pattern error: {reason}"
  | fileNotFound path => s!"file not found: {path}"
  | inputOutput reason => s!"io error: {reason}"
  | configuration file reason => s!"io error: configuration '{file}': {reason}"
  | invalidConfiguration file reason => s!"io error: invalid configuration '{file}': {reason}"
  | internal reason => s!"internal error: {reason}"
  | notDeclarable name => s!"type '{name}' is not a declared type and has no declaration"
  | unreachable location => s!"internal error: reached unreachable code: {location}"

def help : Cause → Option String
  | defaultInitialization =>
    some "create the value through one of the union's case factories, or set AllowDefault = true on the marker"
  | unresolvedParameter .. =>
    some "the front-end did not bind this parameter; this is a front-end bug"
  | duplicateCase .. => some "case names must be unique within a union"
  | duplicateParameter .. => some "parameter names must be unique within a case"
  | missingHandlers .. =>
    some "supply one handler per case, or dispatch with a default handler"
  | unsupportedFormat .. => some "source documents must be .toml, .json, .yaml or .yml"
  | invalidGlob .. => some "fix the glob pattern syntax"
  | fileNotFound .. => some "check that the file exists at the specified path"
  | internal .. | notDeclarable .. | unreachable .. =>
    some "this is a bug, please report it"
  | _ => none

/-- Every known cause stops the compilation. -/
def severity (_ : Cause) : Severity := .error

/-- Internal errors point at no source text. -/
def isLocatable (c : Cause) : Bool := c.code.domain != .internal

end Cause
end CaseUnion
