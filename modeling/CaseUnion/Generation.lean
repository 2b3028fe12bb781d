import CaseUnion.CallCompletion
import CaseUnion.Document.Format
import CaseUnion.Emission
import CaseUnion.Initialization
import CaseUnion.MemoryFiles
import CaseUnion.SourcePaths

/-!
# Generation

A generation is a list of documents under settings. It emits one unit for each union, into memory or
into files, checks the documents, and fixes one of them. A declaration that is no proper union does
not keep the units of the others from being written.

Units may be written side by side. Here they are written one after the other in the order of the
unions, which is an assumption: it makes no difference where no two units have the same place, and
where two have, either of them may be the one that stays.
-/

namespace CaseUnion

structure Generation where
  settings : Settings
  documents : List Document
  deriving Repr

structure GeneratedUnit where
  path : String
  text : String
  deriving DecidableEq, Repr

namespace Generation

def compilation (g : Generation) : Compilation := .ofDocuments g.documents

def extraction (g : Generation) : Extraction := g.compilation.extractAll g.settings

def unit (g : Generation) (u : UnionType) : Except Failure GeneratedUnit := do
  return ⟨Path.join g.settings.outputDir (u.fileName g.settings), ← u.emit g.settings⟩

def units (g : Generation) : List (Except Failure GeneratedUnit) := g.extraction.unions.map g.unit

def successes {α : Type} (results : List (Except Failure α)) : List α :=
  results.filterMap fun
    | .ok value => some value
    | .error _ => none

def failuresOf {α : Type} (results : List (Except Failure α)) : List Failure :=
  results.filterMap fun
    | .ok _ => none
    | .error failure => some failure

/-- The paths written if nothing failed; a single failure is reported as it is. -/
def conclude (failures : List Failure) (results : List (Except Failure String)) :
    Except Failure (List String) :=
  match failures ++ failuresOf results with
  | [] => .ok (successes results)
  | [failure] => .error failure
  | several => .error (.several several)

/-- The steps that write units into files in memory, the first of them at a position. The steps of
different units may also be taken in turns. -/
def memorySteps (isAttached : Bool) (position : Nat) : List GeneratedUnit → List MemoryFiles.Step
  | [] => []
  | u :: rest =>
    [.create u.path isAttached, .write position u.text, .flush position] ++
      memorySteps isAttached (position + 1) rest

/-- Emits every unit into memory; nothing is collected if the files are not attached. -/
def inMemory (g : Generation) (isAttached : Bool) : Except Failure (List String) × Collected :=
  let units := g.units
  (conclude g.extraction.failures (units.map fun u => u.map (·.path)),
    (MemoryFiles.run {} (memorySteps isAttached 0 (successes units))).collected)

/-- The first document with a path or a source name. -/
def document? (g : Generation) (path : String) : Option Document :=
  g.documents.find? fun d => Path.same d.path path || Path.same d.sourceName path

def fix (g : Generation) (path : String) : Except Failure Document :=
  match g.document? path with
  | none => .error (.of (.fileNotFound path))
  | some d => g.compilation.fixAll g.settings d

def check (g : Generation) : List Failure := g.compilation.check g.settings

section
variable {m : Type → Type} [Monad m] [FileSystem m]

/-- Reads documents; the first failure is reported. -/
def readDocuments : List String → m (Except Failure (List Document))
  | [] => return .ok []
  | path :: rest => do
    match ← FileSystem.read path with
    | .error reason => return .error (.of (.inputOutput reason))
    | .ok text =>
      match Document.parse path text with
      | .error failure => return .error failure
      | .ok d => return (d :: ·) <$> (← readDocuments rest)

def load (s : Settings) : m (Except Failure Generation) := do
  match ← s.sources.paths with
  | .error failure => return .error failure
  | .ok paths => return (⟨s, ·⟩) <$> (← readDocuments paths)

def writeUnit (u : GeneratedUnit) : m (Except Failure String) := do
  match ← FileSystem.write u.path u.text with
  | .ok () => return .ok u.path
  | .error reason => return .error (.of (.inputOutput reason))

/-- Writes every unit to a file, unless the settings keep them in memory. The output directory is
made if there is anything to write. The order of the writes is one of those that are possible. -/
def toFiles (g : Generation) : m (Except Failure (List String)) := do
  if g.settings.inMemory then return (g.inMemory false).1
  else
    let made ←
      if g.extraction.unions.isEmpty then pure (.ok ())
      else FileSystem.createDirectories g.settings.outputDir
    match made with
    | .error reason => return .error (.of (.inputOutput reason))
    | .ok () =>
      let results ← g.units.mapM fun
        | .ok u => writeUnit u
        | .error failure => pure (.error failure)
      return conclude g.extraction.failures results

end

end Generation
end CaseUnion
