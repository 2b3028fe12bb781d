import CaseUnion.Arguments
import CaseUnion.Generation
import CaseUnion.Settings.Load

/-!
# Commands

A command loads the settings and the documents that they name, and then generates units, checks the
documents, or fixes one of them. What it prints is part of its outcome.
-/

namespace CaseUnion

inductive Outcome where
  /-- The arguments were not accepted. -/
  | refused (refusal : Arguments.Refusal)
  | failed (failure : Failure)
  /-- The command did its work. Reports go where messages go, and not into the output. -/
  | done (isSuccess : Bool) (output : String) (reports : List Failure)
  deriving Repr

namespace Commands
variable {m : Type → Type} [Monad m] [FileSystem m]

def printed (path text : String) : String := s!"// {path}\n{text}\n"

/-- Writes the units of a generation, or prints them in the order of their paths. -/
def generate (g : Generation) (isDry : Bool) : m Outcome := do
  if isDry then
    match g.inMemory true with
    | (.error failure, _) => return .failed failure
    | (.ok _, files) =>
      return .done true (String.join (files.map fun (path, text) => printed path text)) []
  else
    match ← g.toFiles with
    | .error failure => return .failed failure
    | .ok _ => return .done true "" []

def check (g : Generation) : Outcome :=
  let reports := g.check
  .done (!reports.any (·.isFatal)) "" reports

def writeDocument (d : Document) : m Outcome := do
  match d.render with
  | .error failure => return .failed failure
  | .ok text =>
    match ← FileSystem.write d.path text with
    | .error reason => return .failed (.of (.inputOutput reason))
    | .ok () => return .done true "" []

def fix (g : Generation) (path : String) (isWritten : Bool) : m Outcome := do
  match g.fix path with
  | .error failure => return .failed failure
  | .ok d => if isWritten then writeDocument d else return .done true d.text []

def fulfil (environment : Settings.Environment) (request : Arguments.Request) : m Outcome := do
  match ← Settings.load request.configDir environment with
  | .error failure => return .failed failure
  | .ok settings =>
    let settings :=
      if request.command = .generate true then { settings with inMemory := true } else settings
    match ← Generation.load settings with
    | .error failure => return .failed failure
    | .ok g =>
      match request.command with
      | .generate isDry => generate g isDry
      | .check => return check g
      | .fix path isWritten => fix g path isWritten

def run (environment : Settings.Environment) (arguments : List String) : m Outcome := do
  match Arguments.read environment arguments with
  | .error refusal => return .refused refusal
  | .ok request => fulfil environment request

end Commands
end CaseUnion
