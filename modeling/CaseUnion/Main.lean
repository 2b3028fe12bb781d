import CaseUnion.Commands

/-!
# The program

The outer layer of the command line: it does on the disk what the commands ask of a file system,
passes on the environment, and prints outcomes.
-/

namespace CaseUnion.Main

/-- A path of the working directory as the file system takes it. -/
def located (path : String) : IO.FS.DirEntry := ⟨path, ""⟩

def attempt {α : Type} (action : IO α) : IO (Except String α) := do
  try
    return .ok (← action)
  catch e =>
    return .error (toString e)

instance : FileSystem IO where
  isDirectory path := (located path).root.isDir
  isFile path := do
    if ← (located path).root.isDir then return false else (located path).root.pathExists
  children path := do
    match ← attempt (located path).root.readDir with
    | .ok entries => return entries.toList.map (·.fileName)
    | .error _ => return []
  read path := attempt (IO.FS.readFile path)
  write path content := attempt (IO.FS.writeFile path content)
  createDirectories path :=
    if path.isEmpty then return .ok () else attempt (IO.FS.createDirAll path)

def environment : IO Settings.Environment := do
  match ← attempt (IO.FS.readFile "/proc/self/environ") with
  | .error _ => return []
  | .ok listing =>
    return (listing.splitOn "\x00").filterMap fun line =>
      match line.splitOn "=" with
      | name :: value :: more => some (name, "=".intercalate (value :: more))
      | _ => none

def usage : String :=
  String.join [s!"usage: {programName} [--log-level LEVEL] COMMAND\n\n",
    "generate [-d DIR] [--dry]        write the unit of every union, or print it\n",
    "check [-d DIR]                   report unions that are initialized without a case\n",
    "fix [-d DIR] DOCUMENT [--write]  complete calls that miss cases of a union\n"]

def refusalText : Arguments.Refusal → String
  | .help | .helpForNothing => usage
  | .unknownArgument => "error: unexpected argument\n"
  | .unknownCommand => "error: unrecognized command\n"
  | .missingCommand => "error: a command is missing\n"
  | .missingArgument => "error: the document is missing\n"
  | .wrongValue => "error: a value is missing or wrong\n"
  | .unwantedValue => "error: a value is given to an option that takes none\n"
  | .repeatedOption => "error: an option is given more than once\n"

def report (failure : Failure) : IO Unit := do
  for f in failure.flat do
    IO.eprintln f.display

/-- Prints an outcome; the result is the exit code. -/
def finish : Outcome → IO UInt32
  | .refused .help => do
    IO.print usage
    return 0
  | .refused refusal => do
    IO.eprint (refusalText refusal)
    return 2
  | .failed failure => do
    report failure
    return 1
  | .done isSuccess output reports => do
    IO.print output
    for failure in reports do
      report failure
    return if isSuccess then 0 else 1

end CaseUnion.Main

def main (arguments : List String) : IO UInt32 := do
  CaseUnion.Main.finish (← CaseUnion.Commands.run (← CaseUnion.Main.environment) arguments)
