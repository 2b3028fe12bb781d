import CaseUnion.Document.Format
import CaseUnion.FileSystem
import CaseUnion.Settings.Fields
import CaseUnion.Settings.Layers

/-!
# Loading settings

Settings come from a file with a fixed name in the configuration directory, in any of the data
formats, and from environment variables. A file that does not exist says nothing.
-/

namespace CaseUnion.Settings

abbrev Environment := List (String × String)

def dropByteOrderMark (text : String) : String :=
  match text.toList with
  | '\ufeff' :: rest => String.ofList rest
  | _ => text

/-- How deep lists and tables of a JSON configuration nest. -/
def nestingLimit : Nat := 127

mutual

/-- Whether all integers have 64 bits and a sign. -/
def isNarrow : Datum → Bool
  | .int n => IsSigned64 n
  | .list items => areNarrow items
  | .table entries => entriesAreNarrow entries
  | _ => true

def areNarrow : List Datum → Bool
  | [] => true
  | d :: rest => isNarrow d && areNarrow rest

def entriesAreNarrow : List (String × Datum) → Bool
  | [] => true
  | (_, d) :: rest => isNarrow d && entriesAreNarrow rest

end

def dataOf? : Format → String → Option Datum
  | .json, text => ((Json.parse? text).bind (·.typed?)).filter (·.depth ≤ nestingLimit)
  | .toml, text => (Toml.parse? text).filter isNarrow
  | .yaml, text => Yaml.parseCore? text

def parseLayer (format : Format) (text : String) : Except Fault (List (String × Datum)) :=
  match dataOf? format (dropByteOrderMark text) with
  | some (.table entries) => .ok (settleEntries entries)
  | _ => .error (.unreadable format.name)

def assemble (fileLayer : List (String × Datum)) (environment : Environment) :
    Except Fault Settings :=
  let fromEnvironment := environment.filterMap fun (name, value) => ofVariable? name value
  ofDatum .lenient (layer (layer (.table []) fileLayer) fromEnvironment)

section
variable {m : Type → Type} [Monad m] [FileSystem m]

/-- The first configuration file that exists, with its format. A file without an extension stands in
front of all others, though it cannot be read. -/
def findFile (file : String) : m (Option (String × Format)) := do
  if ← FileSystem.isFile file then return none
  for (extension, format) in
      [("toml", Format.toml), ("json", Format.json), ("yaml", Format.yaml), ("yml", Format.yaml)] do
    let path := s!"{file}.{extension}"
    if ← FileSystem.isFile path then return some (path, format)
  return none

def readLayer (file : String) : m (Except Fault (List (String × Datum))) := do
  match ← findFile file with
  | none => return .ok []
  | some (path, format) =>
    match ← FileSystem.read path with
    | .ok text => return parseLayer format text
    | .error _ => return .ok []

def load (directory : Option String) (environment : Environment) : m (Except Failure Settings) := do
  let file := Path.join (directory.getD "./") programName
  match ← readLayer file with
  | .error fault => return .error (.of (.configuration file fault.message))
  | .ok fileLayer =>
    match assemble fileLayer environment with
    | .error fault => return .error (.of (.configuration file fault.message))
    | .ok s =>
      if s.isValid then return .ok s
      else
        return .error (.of (.invalidConfiguration file "a setting is empty or out of range"))

end

end CaseUnion.Settings
