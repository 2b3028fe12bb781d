/-!
# Paths

A path is a text; `Path.steps` are the components it is made of. Repeated and trailing separators
and inner dots add no component. Paths are compared and sorted by their components.
-/

namespace CaseUnion.Path

inductive Step where
  /-- The separator that a path begins with. -/
  | root
  /-- A dot that a path begins with. -/
  | here
  /-- The directory around. -/
  | up
  | name (text : String)
  deriving DecidableEq, Repr

/-- The parts between separators, empty ones included. -/
def parts : List Char → List (List Char)
  | [] => [[]]
  | c :: rest =>
    if c = '/' then [] :: parts rest
    else
      match parts rest with
      | [] => [[c]]
      | first :: others => (c :: first) :: others

def innerStep? (part : List Char) : Option Step :=
  if part = [] ∨ part = ['.'] then none
  else if part = ['.', '.'] then some .up
  else some (.name (String.ofList part))

def steps (path : String) : List Step :=
  let inner := (parts path.toList).filterMap innerStep?
  if path.toList.head? = some '/' then .root :: inner
  else if (parts path.toList).head? = some ['.'] then .here :: inner
  else inner

def same (p q : String) : Bool := steps p == steps q

def Step.rank : Step → Nat
  | root => 0
  | here => 1
  | up => 2
  | name _ => 3

/-- Names are sorted by their characters, behind the other components. -/
def Step.precedes : Step → Step → Bool
  | name a, name b => a < b
  | a, b => a.rank < b.rank

def stepsPrecede : List Step → List Step → Bool
  | _, [] => false
  | [], _ :: _ => true
  | a :: as, b :: bs => a.precedes b || (a == b && stepsPrecede as bs)

def precedes (p q : String) : Bool := stepsPrecede (steps p) (steps q)

def isAbsolute (path : String) : Bool := path.toList.head? = some '/'

/-- Whether a path and every name in it are short enough for a file system and free of NUL. -/
def isUsable (path : String) : Bool :=
  path.utf8ByteSize < 4096 && !path.toList.contains '\x00' && (steps path).all fun
    | .name text => text.utf8ByteSize ≤ 255
    | _ => true

/-- A path seen from another one. An absolute path stays as it is, and no second separator is
added. -/
def join (base path : String) : String :=
  if isAbsolute path then path
  else if base.isEmpty || base.toList.getLast? = some '/' then base ++ path
  else base ++ "/" ++ path

def fileName? (path : String) : Option String :=
  match (steps path).getLast? with
  | some (.name text) => some text
  | _ => none

/-- What stands behind the last dot of the file name, unless this dot is its first character. -/
def extension? (path : String) : Option String :=
  match fileName? path with
  | none => none
  | some text =>
    let behind := (text.toList.reverse.takeWhile (· ≠ '.')).reverse
    let before := text.length - behind.length
    if before ≤ 1 then none else some (String.ofList behind)

end CaseUnion.Path
