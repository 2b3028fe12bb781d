import CaseUnion.Failure
import CaseUnion.Glob
import CaseUnion.Settings

/-!
# The paths of source documents

The source documents are the paths found by the patterns to include, less those that a pattern to
exclude matches as a text. They are sorted by components, and no path occurs twice.
-/

namespace CaseUnion

namespace Path

/-- Puts a path in its place in a sorted list, unless it is there already. -/
def insert (path : String) : List String → List String
  | [] => [path]
  | known :: rest =>
    if same path known then known :: rest
    else if precedes path known then path :: known :: rest
    else known :: insert path rest

end Path

namespace Glob

def PatternError.failure (e : PatternError) : Failure := .of (.invalidGlob e.message)

def failure? (pattern : String) : Option Failure :=
  match scan pattern.toList with
  | .ok _ => none
  | .error e => some e.failure

end Glob

namespace SourcePatterns
variable {m : Type → Type} [Monad m] [FileSystem m]

/-- Adds the paths that the patterns find to a sorted list. The first wrong pattern is reported. -/
def found : List String → List String → m (Except Failure (List String))
  | known, [] => return .ok known
  | known, pattern :: rest =>
    match Glob.compile pattern with
    | .error e => return .error e.failure
    | .ok glob => do
      let paths ← glob.paths
      found (paths.foldl (fun known path => Path.insert path known) known) rest

def excluded (p : SourcePatterns) : Except Failure (List (List Glob.Token)) :=
  p.excludes.mapM fun pattern =>
    match Glob.scan pattern.toList with
    | .ok tokens => .ok tokens
    | .error e => .error e.failure

def paths (p : SourcePatterns) : m (Except Failure (List String)) := do
  match ← found [] p.includes with
  | .error failure => return .error failure
  | .ok known =>
    match p.excluded with
    | .error failure => return .error failure
    | .ok patterns =>
      return .ok <| known.filter fun path =>
        !patterns.any fun tokens => Glob.Token.matches tokens path.toList

end SourcePatterns
end CaseUnion
