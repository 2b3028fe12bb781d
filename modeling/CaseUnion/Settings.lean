/-!
# Settings

What can be configured, with the value that each setting has when nothing is said.
-/

namespace CaseUnion

structure SourcePatterns where
  includes : List String := []
  excludes : List String := []
  deriving DecidableEq, Repr

/-- The name of the program. Its configuration file has this name, and the names of the environment
variables that are meant for it begin with it. -/
def programName : String := "unionize"

structure Settings where
  /-- The attribute that marks a union. -/
  marker : String := "DiscriminatedUnion"
  /-- The name of the nested interface that lists the cases. -/
  caseList : String := "Cases"
  /-- The ending of the names of generated files. -/
  generatedSuffix : String := ".g.cs"
  indentWidth : Nat := 4
  outputDir : String := "./generated"
  /-- Whether generated units are only collected and not written to disk. -/
  inMemory : Bool := false
  sources : SourcePatterns := {}
  /-- The host diagnostic that reports an incomplete call. -/
  diagnosticId : String := "CS7036"
  deriving DecidableEq, Repr

namespace Settings

/-- A file is generated if its name has the ending of generated files. -/
def isGenerated (s : Settings) (path : String) : Bool :=
  s.generatedSuffix.toList.isSuffixOf path.toList

def isValid (s : Settings) : Bool :=
  !s.marker.isEmpty && !s.caseList.isEmpty && !s.generatedSuffix.isEmpty &&
    !s.diagnosticId.isEmpty && 1 ≤ s.indentWidth && s.indentWidth ≤ 8

end Settings
end CaseUnion
