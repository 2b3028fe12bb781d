/-!
# Command line arguments

The arguments are options of the program, a command, and the options and words of the command. They
are read one by one. The value of an option, or a word, is checked when the next one begins or the
arguments end, so an argument that is not known at all is reported before an earlier wrong value.
-/

namespace CaseUnion.Arguments

inductive Refusal where
  /-- Help was asked for. -/
  | help
  /-- There are no arguments at all. -/
  | helpForNothing
  | unknownArgument
  | unknownCommand
  | missingCommand
  | missingArgument
  | wrongValue
  | unwantedValue
  | repeatedOption
  deriving DecidableEq, Repr

inductive CommandOption where
  | help | logLevel | configDir | dry | write
  deriving DecidableEq, Repr

namespace CommandOption

def takesValue : CommandOption → Bool
  | logLevel | configDir => true
  | _ => false

def long : CommandOption → String
  | help => "help"
  | logLevel => "log-level"
  | configDir => "config-dir"
  | dry => "dry"
  | write => "write"

def short? : CommandOption → Option Char
  | help => some 'h'
  | configDir => some 'd'
  | write => some 'w'
  | _ => none

end CommandOption

/-- Where in the arguments an option stands. -/
inductive Level where
  | program | generate | check | fix
  deriving DecidableEq, Repr

namespace Level

def options : Level → List CommandOption
  | program => [.help, .logLevel]
  | generate => [.help, .logLevel, .configDir, .dry]
  | check => [.help, .logLevel, .configDir]
  | fix => [.help, .logLevel, .configDir, .write]

def ofName? (name : String) : Option Level :=
  if ["generate", "gen", "g"].contains name then some generate
  else if ["check", "c"].contains name then some check
  else if ["fix", "f"].contains name then some fix
  else none

def isCommandName (name : String) : Bool := name == "help" || (ofName? name).isSome

end Level

def logLevels : List String := ["debug", "trace", "info", "error", "warn"]

inductive Pending where
  | value (option : CommandOption) (text : Option String)
  | document (path : String)

structure Reading where
  given : List (CommandOption × String) := []
  document : Option String := none
  pending : Option Pending := none
  /-- The option whose value is the next argument. -/
  awaiting : Option CommandOption := none
  /-- Whether all that follows are words. -/
  isTrailing : Bool := false

namespace Reading

/-- Records an option, which must not occur before. -/
def record (r : Reading) (option : CommandOption) (value : String) : Except Refusal Reading :=
  if (r.given.lookup option).isSome then .error .repeatedOption
  else if option = .logLevel && !logLevels.contains value then .error .wrongValue
  else .ok { r with given := r.given ++ [(option, value)] }

def settle (r : Reading) : Except Refusal Reading :=
  let rest := { r with pending := none, awaiting := none }
  match r.pending with
  | none => .ok rest
  | some (.value _ none) => .error .wrongValue
  | some (.value option (some value)) => rest.record option value
  | some (.document path) =>
    if path.isEmpty then .error .wrongValue else .ok { rest with document := some path }

def readOption (r : Reading) (option : CommandOption) (attached : Option String) :
    Except Refusal Reading := do
  if option.takesValue then
    let r ← r.settle
    match attached with
    | some value => r.record option value
    | none => return { r with pending := some (.value option none), awaiting := some option }
  else if attached.isSome then .error .unwantedValue
  else
    let r ← r.settle
    if option = .help then .error .help else r.record option ""

def splitValue (cs : List Char) : String × Option String :=
  let name := String.ofList (cs.takeWhile (· ≠ '='))
  match cs.dropWhile (· ≠ '=') with
  | _ :: value => (name, some (String.ofList value))
  | [] => (name, none)

def readLong (level : Level) (r : Reading) (cs : List Char) : Except Refusal Reading :=
  let (name, attached) := splitValue cs
  match level.options.find? (·.long == name) with
  | some option => r.readOption option attached
  | none => .error .unknownArgument

/-- Reads options written as single letters. What follows the letter of an option with a value is
its value. -/
def readShort (level : Level) (r : Reading) : List Char → Except Refusal Reading
  | [] => .ok r
  | c :: rest =>
    match level.options.find? (·.short? == some c) with
    | none => .error .unknownArgument
    | some option =>
      if option.takesValue then
        match rest with
        | [] => r.readOption option none
        | '=' :: value => r.readOption option (some (String.ofList value))
        | value => r.readOption option (some (String.ofList value))
      else do readShort level (← r.readOption option none) rest

/-- Reads an argument that is no option. Only one command takes a word, and only one. -/
def readWord (level : Level) (r : Reading) (word : String) : Except Refusal Reading :=
  let isTaken := r.document.isSome || (match r.pending with
    | some (.document _) => true
    | _ => false)
  if level = .fix && !isTaken then do
    return { (← r.settle) with pending := some (.document word) }
  else if level = .program && !(r.isTrailing && Level.isCommandName word) then
    .error .unknownCommand
  else .error .unknownArgument

def step (level : Level) (r : Reading) (word : String) : Except Refusal Reading :=
  if r.isTrailing then r.readWord level word
  else
    match word.toList with
    | ['-', '-'] => .ok { r with isTrailing := true }
    | '-' :: '-' :: cs => readLong level r cs
    | '-' :: c :: cs => readShort level r (c :: cs)
    | _ =>
      match r.awaiting with
      | some option =>
        .ok { r with pending := some (.value option (some word)), awaiting := none }
      | none => r.readWord level word

/-- Checks the end of the arguments of a level, and the log level of the environment if none is
given. -/
def finish (r : Reading) (logLevel : Option String) : Except Refusal Reading := do
  let r ← r.settle
  match logLevel with
  | some level =>
    if (r.given.lookup .logLevel).isNone && !logLevels.contains level then .error .wrongValue
    else return r
  | none => return r

end Reading

inductive Command where
  /-- Write the generated units, or print them. -/
  | generate (isDry : Bool)
  | check
  /-- Complete the calls of a document, and print its text or write it back. -/
  | fix (document : String) (isWritten : Bool)
  deriving DecidableEq, Repr

structure Request where
  configDir : Option String
  command : Command
  deriving DecidableEq, Repr

def readCommand (level : Level) (r : Reading) : List String → Except Refusal Reading
  | [] => .ok r
  | word :: rest => do readCommand level (← r.step level word) rest

def request (level : Level) (r : Reading) : Except Refusal Request :=
  let has (option : CommandOption) : Bool := (r.given.lookup option).isSome
  let configDir := r.given.lookup .configDir
  match level with
  | .program => .error .missingCommand
  | .generate => .ok ⟨configDir, .generate (has .dry)⟩
  | .check => .ok ⟨configDir, .check⟩
  | .fix =>
    match r.document with
    | some path => .ok ⟨configDir, .fix path (has .write)⟩
    | none => .error .missingArgument

/-- Help can be asked for on the program or on one command; a command has no commands of its own. -/
def helpOn : List String → Refusal
  | [] => .help
  | [word] => if Level.isCommandName word then .help else .unknownCommand
  | _ => .unknownCommand

def readProgram (logLevel : Option String) (r : Reading) : List String → Except Refusal Request
  | [] => do
    let r ← r.finish logLevel
    if r.given.isEmpty && logLevel.isNone then .error .helpForNothing else .error .missingCommand
  | word :: rest =>
    if r.isTrailing || r.awaiting.isSome || !Level.isCommandName word then do
      readProgram logLevel (← r.step .program word) rest
    else
      match Level.ofName? word with
      | none => .error (helpOn rest)
      | some level => do
        let inner ← readCommand level {} rest
        let inner ← inner.finish logLevel
        let request ← request level inner
        let _ ← r.finish logLevel
        return request

/-- Reads all arguments. The log level of the environment counts where none is given. -/
def read (environment : List (String × String)) (arguments : List String) :
    Except Refusal Request :=
  readProgram (environment.lookup "LOG_LEVEL") {} arguments

end CaseUnion.Arguments
