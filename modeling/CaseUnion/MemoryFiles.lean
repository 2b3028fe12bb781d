import CaseUnion.Path

/-!
# Files in memory

An in-memory file gathers what is written to it. Flushing an attached file hands its whole content
to the collection, where the last flush of a path stands. A file that is not attached is not
collected; it may be attached later on.

Files hold texts unless said otherwise. Any data that can be appended will do, such as bytes.
-/

namespace CaseUnion

structure MemoryFile (α : Type := String) where
  path : String
  isAttached : Bool
  data : α
  deriving DecidableEq, Repr

/-- The collected contents, in the order of their paths, one for each path. -/
abbrev Collected (α : Type := String) := List (String × α)

namespace Collected

variable {α : Type}

/-- Puts a content at a path, in place of an older one. The first spelling of a path stays. -/
def insert (path : String) (content : α) : Collected α → Collected α
  | [] => [(path, content)]
  | (known, old) :: rest =>
    if Path.same path known then (known, content) :: rest
    else if Path.precedes path known then (path, content) :: (known, old) :: rest
    else (known, old) :: insert path content rest

def get? (c : Collected α) (path : String) : Option α :=
  (c.find? fun (known, _) => Path.same path known).map (·.2)

end Collected

/-- All files opened so far, known by their positions, and what they handed over. -/
structure MemoryFiles (α : Type := String) where
  opened : List (MemoryFile α) := []
  collected : Collected α := []
  deriving Repr

namespace MemoryFiles

variable {α : Type}

inductive Step (α : Type := String) where
  | create (path : String) (isAttached : Bool)
  | attach (file : Nat)
  | write (file : Nat) (chunk : α)
  | flush (file : Nat)
  deriving DecidableEq, Repr

/-- A new file holds the default content, which is the empty one. -/
def step [Inhabited α] [Append α] (m : MemoryFiles α) : Step α → MemoryFiles α
  | .create path isAttached => { m with opened := m.opened ++ [⟨path, isAttached, default⟩] }
  | .attach file =>
    { m with opened := m.opened.modify file fun f => { f with isAttached := true } }
  | .write file chunk =>
    { m with opened := m.opened.modify file fun f => { f with data := f.data ++ chunk } }
  | .flush file =>
    match m.opened[file]? with
    | some f =>
      if f.isAttached then { m with collected := m.collected.insert f.path f.data } else m
    | none => m

def run [Inhabited α] [Append α] (m : MemoryFiles α) (steps : List (Step α)) : MemoryFiles α :=
  steps.foldl step m

end MemoryFiles
end CaseUnion
