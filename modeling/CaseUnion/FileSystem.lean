import CaseUnion.Path

/-!
# File systems

What the program asks of a file system, and a directory tree as a value that answers it. A relative
path starts at the working directory; the tree holds nothing outside of that directory.
-/

namespace CaseUnion

/-- Requests that fail say why. -/
class FileSystem (m : Type → Type) where
  isDirectory : String → m Bool
  isFile : String → m Bool
  /-- The names in a directory, in any order. -/
  children : String → m (List String)
  read : String → m (Except String String)
  /-- Creates or replaces a file in an existing directory. -/
  write : String → String → m (Except String Unit)
  /-- Creates a directory and those around it that do not exist. -/
  createDirectories : String → m (Except String Unit)

/-- A directory tree: files with their texts and directories without, by their names from the top
down. A directory exists if it is listed or if anything in it is. -/
structure FileTree where
  entries : List (List String × Option String) := []
  deriving DecidableEq, Repr

namespace FileTree

def hasDirectory (t : FileTree) (names : List String) : Bool :=
  names.isEmpty || t.entries.any fun (known, content) =>
    names.isPrefixOf known && (known.length > names.length || content.isNone)

def file? (t : FileTree) (names : List String) : Option String :=
  (t.entries.lookup names).bind id

/-- Where a path leads: some levels above the working directory, or to names inside of it. -/
structure Place where
  above : Nat := 0
  names : List String := []
  deriving DecidableEq, Repr

/-- The directories around the working directory exist, and nothing else outside of it. -/
def placeIsDirectory (t : FileTree) (p : Place) : Bool := p.above > 0 || t.hasDirectory p.names

/-- Follows components from a place on. Only a directory can be left or entered. -/
def follow? (t : FileTree) (p : Place) : List Path.Step → Option Place
  | [] => some p
  | step :: rest =>
    if t.placeIsDirectory p then
      match step with
      | .name name => if p.above > 0 then none else t.follow? ⟨0, p.names ++ [name]⟩ rest
      | .up =>
        if p.names.isEmpty then t.follow? ⟨p.above + 1, []⟩ rest
        else t.follow? ⟨0, p.names.dropLast⟩ rest
      | .here => t.follow? p rest
      | .root => none
    else none

/-- The place that a path leads to; the last name of it need not exist. -/
def resolve? (t : FileTree) (path : String) : Option Place :=
  if path.isEmpty || !Path.isUsable path then none
  else
    match t.follow? {} (Path.steps path) with
    | some p => if path.toList.getLast? = some '/' && !t.placeIsDirectory p then none else some p
    | none => none

def isDirectory (t : FileTree) (path : String) : Bool :=
  ((t.resolve? path).map t.placeIsDirectory).getD false

def textAt? (t : FileTree) (path : String) : Option String :=
  (t.resolve? path).bind fun p => if p.above > 0 then none else t.file? p.names

def isFile (t : FileTree) (path : String) : Bool := (t.textAt? path).isSome

def children (t : FileTree) (path : String) : List String :=
  match t.resolve? path with
  | some ⟨0, names⟩ =>
    (t.entries.filterMap fun (known, _) =>
      if names.isPrefixOf known then (known.drop names.length).head? else none).eraseDups
  | _ => []

def read (t : FileTree) (path : String) : Except String String :=
  match t.textAt? path with
  | some content => .ok content
  | none => .error (if t.isDirectory path then "is a directory" else "no such file")

def put (t : FileTree) (names : List String) (content : Option String) : FileTree :=
  ⟨t.entries.filter (·.1 != names) ++ [(names, content)]⟩

def write (t : FileTree) (path content : String) : Except String FileTree :=
  match t.resolve? path with
  | none => .error "no such directory"
  | some p =>
    if t.placeIsDirectory p then .error "is a directory"
    else .ok (t.put p.names (some content))

/-- Follows components from the names of a directory on, creating directories on the way. -/
def create (t : FileTree) (names : List String) : List Path.Step → Except String FileTree
  | [] => .ok t
  | .name name :: rest =>
    let inner := names ++ [name]
    if t.hasDirectory inner then t.create inner rest
    else if (t.file? inner).isSome then .error "not a directory"
    else (t.put inner none).create inner rest
  | .up :: rest =>
    if names.isEmpty then .error "outside of the working directory"
    else t.create names.dropLast rest
  | .here :: rest => t.create names rest
  | .root :: _ => .error "outside of the working directory"

def createDirectories (t : FileTree) (path : String) : Except String FileTree :=
  if Path.isUsable path then t.create [] (Path.steps path) else .error "unusable name"

def change (f : FileTree → Except String FileTree) : StateM FileTree (Except String Unit) := do
  match f (← get) with
  | .ok t =>
    set t
    return .ok ()
  | .error reason => return .error reason

instance : FileSystem (StateM FileTree) where
  isDirectory path := return (← get).isDirectory path
  isFile path := return (← get).isFile path
  children path := return (← get).children path
  read path := return (← get).read path
  write path content := change (·.write path content)
  createDirectories path := change (·.createDirectories path)

end FileTree
end CaseUnion
