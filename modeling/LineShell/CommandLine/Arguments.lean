import LineShell.CommandLine.Grammar
import LineShell.Environment
import LineShell.Path

/-!
# Reading the command line

Arguments are read from left to right.  An option that waits for its value takes
the next argument that is no option; the value is settled only when the next
option or operand comes, or at the end.  The options of a command below are
settled before those of the command above it.  A value of the command line comes
before one of the environment, and that before the default.
-/

namespace LineShell
namespace CommandLine

open Text

/-- Where a value comes from. -/
inductive Source where
  | default
  | environment
  | commandLine
  deriving DecidableEq, Repr

namespace Source

/-- The rank of a source; a higher one wins. -/
def rank : Source → Nat
  | default => 0
  | environment => 1
  | commandLine => 2

end Source

/-- A value with its source. -/
structure Given where
  key : Key
  value : String
  source : Source
  deriving DecidableEq, Repr

/-- What was read of one command's arguments: the settled values, the option or
operand whose value is not settled yet with the value if it has come, whether an
option waits for its value, whether the operand has come, and whether only
operands may follow. -/
structure Reading where
  given : List Given
  pending : Option (Parameter × Option String)
  waits : Bool
  operandSeen : Bool
  trailing : Bool

namespace Reading

def initial : Reading :=
  ⟨[], none, false, false, false⟩

def find? (reading : Reading) (key : Key) : Option Given :=
  reading.given.find? fun given => given.key = key

def checkValue (kind : Kind) (value : String) : Except Usage Unit :=
  match kind with
  | .path => if value.isEmpty then .error .invalidValue else .ok ()
  | .count =>
    match Numeral.word64? value.toList with
    | some _ => .ok ()
    | none => .error .valueValidation
  | _ => .ok ()

def store (reading : Reading) (parameter : Parameter) (value : String) (source : Source) :
    Except Usage Reading := do
  checkValue parameter.kind value
  pure { reading with given := ⟨parameter.key, value, source⟩ :: reading.given }

/-- Settles a value from the command line, where a parameter may stand once. -/
def give (reading : Reading) (parameter : Parameter) (value : Option String) :
    Except Usage Reading :=
  match value with
  | none => .error .invalidValue
  | some value =>
    if (reading.find? parameter.key).isSome then .error .argumentConflict
    else reading.store parameter value .commandLine

def settle (reading : Reading) : Except Usage Reading :=
  match reading.pending with
  | none => .ok reading
  | some (parameter, value) => { reading with pending := none }.give parameter value

def readFlag (reading : Reading) (parameter : Parameter) : Except Usage Reading := do
  let reading ← reading.settle
  let reading ← reading.give parameter (some "true")
  pure { reading with waits := false }

/-- An option with a value, attached to it or still to come. -/
def readOption (reading : Reading) (parameter : Parameter) (attached : Option String) :
    Except Usage Reading := do
  let reading ← reading.settle
  match attached with
  | some value =>
    let reading ← reading.give parameter (some value)
    pure { reading with waits := false }
  | none => pure { reading with pending := some (parameter, none), waits := true }

def request (reading : Reading) (usage : Usage) : Except Usage Reading := do
  let _ ← reading.settle
  .error usage

/-- A long option, with the value that stands behind an equals sign. -/
def readLong (level : Level) (reading : Reading) (name : String) (attached : Option String) :
    Except Usage Reading :=
  if name = "help" ∨ name = "version" then
    if attached.isSome then .error .tooManyValues
    else reading.request (if name = "help" then .displayHelp else .displayVersion)
  else
    match level.options.find? fun parameter => parameter.long = name with
    | none => .error .unknownArgument
    | some parameter =>
      if parameter.kind.takesValue then reading.readOption parameter attached
      else if attached.isSome then .error .tooManyValues
      else reading.readFlag parameter

/-- The value that is attached to a short option: what follows it, without an
equals sign. -/
def attachedValue : List Char → Option String
  | [] => none
  | '=' :: rest => some (String.ofList rest)
  | rest => some (String.ofList rest)

def readShort (level : Level) : Reading → List Char → Except Usage Reading
  | reading, [] => .ok reading
  | reading, c :: rest =>
    if c = 'h' then reading.request .displayHelp
    else if c = 'V' then reading.request .displayVersion
    else
      match level.options.find? fun parameter => parameter.short = some c with
      | none => .error .unknownArgument
      | some parameter =>
        if parameter.kind.takesValue then reading.readOption parameter (attachedValue rest)
        else do
          let reading ← reading.readFlag parameter
          readShort level reading rest

/-- An argument that is neither an option nor the value of one. -/
def readOperand (level : Level) (reading : Reading) (argument : String) :
    Except Usage Reading :=
  match if reading.operandSeen then none else level.operand? with
  | some parameter => do
    let reading ← reading.settle
    pure { reading with
      pending := some (parameter, some argument), waits := false, operandSeen := true }
  | none =>
    if reading.trailing ∧ (level.word? argument).isSome then .error .unknownArgument
    else if level.needsChild then .error .invalidSubcommand
    else .error .unknownArgument

def splitLong (text : List Char) : String × Option String :=
  match text.dropWhile (· ≠ '=') with
  | [] => (String.ofList text, none)
  | _ :: value => (String.ofList (text.takeWhile (· ≠ '=')), some (String.ofList value))

def readArgument (level : Level) (reading : Reading) (argument : String) :
    Except Usage Reading :=
  if reading.trailing then reading.readOperand level argument
  else
    match argument.toList with
    | ['-', '-'] => .ok { reading with trailing := true }
    | '-' :: '-' :: text =>
      let (name, attached) := splitLong text
      reading.readLong level name attached
    | '-' :: c :: text => readShort level reading (c :: text)
    | _ =>
      match reading.pending with
      | some (parameter, none) =>
        if reading.waits then
          .ok { reading with pending := some (parameter, some argument), waits := false }
        else reading.readOperand level argument
      | _ => reading.readOperand level argument

/-- Takes values for what was not given from the environment, and then the
defaults. -/
def fill (env : Environment) : List Parameter → Reading → Except Usage Reading
  | [], reading => .ok reading
  | parameter :: rest, reading => do
    let value? := parameter.envName.bind env.find?
    let reading ←
      if (reading.find? parameter.key).isSome then pure reading
      else match value?, parameter.default with
        | some value, _ => reading.store parameter value .environment
        | none, some value => reading.store parameter value .default
        | none, none => pure reading
    fill env rest reading

/-- Settles and checks the values of a command that has, or has not, one below
it. -/
def finish (env : Environment) (level : Level) (hasChild : Bool) (reading : Reading) :
    Except Usage (List Given) := do
  let reading ← reading.settle
  let reading ← fill env level.options reading
  let explicit := reading.given.any fun given => given.source ≠ .default
  if level.needsChild && !hasChild then
    .error (if explicit then .missingSubcommand else .displayHelpOnMissing)
  else if level.operand?.isSome && !reading.operandSeen then .error .missingRequired
  else .ok reading.given

end Reading

/-- The words behind a request for help must name commands. -/
def readHelp : Option Level → List String → Usage
  | _, [] => .displayHelp
  | none, _ :: _ => .invalidSubcommand
  | some level, word :: rest =>
    match level.word? word with
    | some (.command child) => readHelp (some child) rest
    | some .help => readHelp none rest
    | none => .invalidSubcommand

/-- The values of a command and those below it, the lowest first. -/
structure Chain where
  level : Level
  given : List (List Given)

def readLevel (env : Environment) (level : Level) (reading : Reading) :
    List String → Except Usage Chain
  | [] => do
    let given ← reading.finish env level false
    pure ⟨level, [given]⟩
  | argument :: rest =>
    let word? :=
      if reading.trailing || reading.waits then none else level.word? argument
    match word? with
    | some .help => .error (readHelp (some level) rest)
    | some (.command child) => do
      let chain ← readLevel env child .initial rest
      let given ← reading.finish env level true
      pure { chain with given := chain.given ++ [given] }
    | none => do
      let reading ← reading.readArgument level argument
      readLevel env level reading rest

namespace Chain

/-- The value of a key: of the highest source, and among those the lowest
command's. -/
def find? (chain : Chain) (key : Key) : Option String :=
  let values := chain.given.flatten.filter fun given => given.key = key
  let best (source : Source) := values.find? fun given => given.source = source
  ((best .commandLine).or ((best .environment).or (best .default))).map Given.value

def flag (chain : Chain) (key : Key) : Bool :=
  (chain.find? key).isSome

def count (chain : Chain) (key : Key) : Nat :=
  ((chain.find? key).bind fun value => Numeral.word64? value.toList).getD 0

def text (chain : Chain) (key : Key) : String :=
  (chain.find? key).getD ""

end Chain

/-- What the program is to do. -/
inductive Command where
  | repl
  | run (file : String)
  | historyList (limit : Nat)
  | historySearch (needle : String) (limit : Nat)
  | historyClear (yes : Bool)
  | cacheClear
  | status
  deriving DecidableEq, Repr

/-- What a command line says. -/
structure Arguments where
  dbPath : Option String
  cacheDir : Option String
  noHistory : Bool
  verbose : Bool
  format : String
  command : Command
  deriving DecidableEq, Repr

namespace Arguments

/-- The command of a chain; one that has commands below it is never the last. -/
def commandOf (chain : Chain) : Command :=
  match chain.level with
  | .run => .run (chain.text .file)
  | .historyList => .historyList (chain.count .limit)
  | .historySearch => .historySearch (chain.text .needle) (chain.count .limit)
  | .historyClear => .historyClear (chain.flag .yes)
  | .cacheClear => .cacheClear
  | .status => .status
  | .repl | .root | .history | .cache => .repl

def read (env : Environment) (arguments : List String) : Except Usage Arguments := do
  let chain ← readLevel env .root .initial arguments
  pure {
    dbPath := chain.find? .dbPath
    cacheDir := chain.find? .cacheDir
    noHistory := chain.flag .noHistory
    verbose := chain.flag .verbose
    format := chain.text .format
    command := commandOf chain }

def database (arguments : Arguments) : String :=
  arguments.dbPath.getD ".incsh/history.db"

def userCache (env : Environment) : String :=
  match (env.find? "XDG_CACHE_HOME").filter Path.isAbsolute with
  | some directory => directory
  | none =>
    let home := (env.find? "HOME").filter fun home => !home.isEmpty
    Path.join (home.getD "/root") ".cache"

def cacheDirectory (env : Environment) (arguments : Arguments) : String :=
  arguments.cacheDir.getD (Path.join (userCache env) "incsh")

end Arguments
end CommandLine
end LineShell
