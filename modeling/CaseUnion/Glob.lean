import CaseUnion.FileSystem
import CaseUnion.Glob.Pattern

/-!
# Finding paths by glob patterns

A pattern is split into the patterns of its path components. Starting at a directory, a component
without wildcards is looked up by its name, and any other component is compared with the names in
the directory. The component `**` stands for any number of directories.
-/

namespace CaseUnion

structure Glob where
  start : String
  components : List (List Glob.Token)
  /-- Whether the pattern ends in a separator, so that only directories are found. -/
  onlyDirectories : Bool
  deriving Repr

namespace Glob

/-- Splits a relative pattern at its separators; one at the end has nothing behind it. -/
def splitComponents (pattern : List Char) : List (List Char) :=
  let parts := Path.parts pattern
  if pattern ≠ [] ∧ parts.getLast? = some [] then parts.dropLast else parts

def compile (pattern : String) : Except PatternError Glob := do
  let _ ← scan pattern.toList
  let (start, relative) :=
    match pattern.toList with
    | '/' :: rest => ("/", rest)
    | cs => (".", cs)
  return {
    start
    components := ← (splitComponents relative).mapM scan
    onlyDirectories := pattern.toList.getLast? = some '/' }

def isRecursive (component : List Token) : Bool := component.contains .anyPath

/-- The path of an entry; the working directory is not written in front of it. -/
def entryPath (directory name : String) : String :=
  if Path.same directory "." then name else Path.join directory name

def dotEntries (component : List Token) : List String :=
  if component.head? = some (.char '.') then
    ["..", "."].filter fun name => Token.matches component name.toList
  else []

section
variable {m : Type → Type} [Monad m] [FileSystem m]

def pathExists (path : String) : m Bool := do
  if ← FileSystem.isDirectory path then return true
  FileSystem.isFile path

/-- The paths that the components lead to from a path on, at most `limit` steps away. -/
def search (onlyDirectories : Bool) :
    (limit : Nat) → List (List Token) → String → m (List String)
  | 0, _, _ => return []
  | _ + 1, [], path => do
    if !onlyDirectories || (← FileSystem.isDirectory path) then return [path] else return []
  | limit + 1, component :: rest, path =>
    match literal? component with
    | some word => do
      let next := entryPath path (String.ofList word)
      let isThere ←
        if word = ['.'] ∨ word = ['.', '.'] then FileSystem.isDirectory path else pathExists next
      if isThere then search onlyDirectories limit rest next else return []
    | none => do
      if ← FileSystem.isDirectory path then
        let dotted ← (dotEntries component).mapM fun name =>
          search onlyDirectories limit rest (Path.join path name)
        let named ← (← FileSystem.children path).mapM fun name => do
          let next := entryPath path name
          if isRecursive component then
            let after := rest.dropWhile isRecursive
            let isDirectory ← FileSystem.isDirectory next
            let deeper ←
              if isDirectory then search onlyDirectories limit (component :: after) next
              else pure []
            match after with
            | [] => return if isDirectory then next :: deeper else deeper
            | following :: others =>
              if Token.matches following name.toList then
                return deeper ++ (← search onlyDirectories limit others next)
              else return deeper
          else if Token.matches component name.toList then
            search onlyDirectories limit rest next
          else return []
        return dotted.flatten ++ named.flatten
      else return []

/-- No path of a file system has more components than this. -/
def depthLimit : Nat := 4096

def paths (g : Glob) : m (List String) :=
  search g.onlyDirectories (depthLimit + g.components.length) g.components g.start

end

end Glob
end CaseUnion
