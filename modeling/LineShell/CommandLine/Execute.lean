import LineShell.CommandLine.Arguments
import LineShell.CommandLine.Report
import LineShell.Digest
import LineShell.History.OpenDatabase
import LineShell.Host
import LineShell.Language.Execute
import LineShell.Session.Drive
import LineShell.Settings

/-!
# Commands

What each command does to the files, what it writes to the two streams, and what
it answers.
-/

namespace LineShell
namespace CommandLine

open Cache History Output Text

/-! ## Sessions on files -/

/-- The compiler of the line language, which has no state. -/
def compiler : Compiler Unit where
  compile source mode filename _ state := (Language.compile source mode filename, state)
  fingerprint := Language.fingerprint

/-- The time of a file system in seconds since the epoch. -/
def seconds (fs : FileSystem) : Float :=
  Float.ofInt fs.now / 1000000000.0

def setup {ω : Type} (host : Host ω) (settings : Settings) (cacheDir : String)
    (journal : Option (Journal Database ShellError)) : Session.Setup Unit ω Database where
  tools := {
    compiler := compiler
    cache := ⟨settings.cache, Digest.ofBytes,
      (Store.disk cacheDir).within host.files host.withFiles⟩
    transform := id
    modified? := fun path world => (host.files world).modified? path }
  executor := Language.executor host.directory
  directory := host.directory
  clock := fun world => (seconds (host.files world), world)
  journal := journal
  tee := settings.tee

def newSession {ω : Type} (settings : Settings) (env : Environment) (world : ω)
    (db : Database) : Session Unit ω Database :=
  .start () world db (.ofSinks (.unlimited settings.sinkKind) (.unlimited settings.sinkKind))
    env

/-! ## Commands -/

/-- What a command leaves behind: its answer, what was written to the streams, and
the world. -/
structure Finished (ω : Type) where
  result : Except ShellError String
  stdout : Bytes
  stderr : Bytes
  world : ω

namespace Finished

variable {ω : Type}

def plain (world : ω) (result : Except ShellError String) : Finished ω :=
  ⟨result, [], [], world⟩

/-- A command that ran a session; a return code other than that of a success is an
error. -/
def ofSession (result : Except ShellError Int32) (session : Session Unit ω Database)
    (world : ω) : Finished ω where
  result := match result with
    | .ok code =>
      if code = successCode then .ok "" else .error (.command (.exit code))
    | .error e => .error e
  stdout := session.streams.stdout.written
  stderr := session.streams.stderr.written
  world := world

end Finished

/-- What commands share: the arguments, the environment, the input and the
world. -/
structure Request (ω : Type) where
  arguments : Arguments
  env : Environment
  input : Bytes
  world : ω

namespace Request

variable {ω : Type}

def cacheDir (request : Request ω) : String :=
  request.arguments.cacheDirectory request.env

def format (request : Request ω) : Format :=
  Format.ofName request.arguments.format

def failed (request : Request ω) (e : ShellError) : Finished ω :=
  .plain request.world (.error e)

def answered (host : Host ω) (request : Request ω) (fs : FileSystem)
    (result : Except ShellError String) : Finished ω :=
  .plain (host.withFiles request.world fs) result

/-- Opens the database if it is there and initialised, and asks it something. -/
def withDatabase (host : Host ω) (request : Request ω)
    (ask : OpenDatabase → FileSystem → Except StorageError String × FileSystem) :
    Finished ω :=
  match OpenDatabase.existing (host.files request.world) request.arguments.database with
  | (.error e, fs) => request.answered host fs (.error (.storage e))
  | (.ok opened, fs) =>
    let (result, fs) := ask opened fs
    request.answered host (opened.close fs) (result.mapError .storage)

/-- Runs the lines of the input in a session with an open database, and closes it. -/
def replWith (host : Host ω) (request : Request ω) (opened : OpenDatabase)
    (journal : Option (Journal Database)) : Finished ω :=
  match Settings.ofEnvironment request.env with
  | .error e =>
    request.answered host (opened.close (host.files request.world)) (.error e)
  | .ok settings =>
    let (result, driven) :=
      Session.drive (setup host settings request.cacheDir journal)
        (newSession settings request.env request.world opened.db) request.input
    let session := driven.session
    let opened := { opened with db := session.history }
    let fs := opened.close (opened.save (host.files session.world))
    .ofSession result session (host.withFiles session.world fs)

def repl (host : Host ω) (request : Request ω) : Finished ω :=
  if request.arguments.noHistory then request.replWith host OpenDatabase.inMemory none
  else
    match OpenDatabase.initialized (host.files request.world) request.arguments.database with
    | (.error e, fs) => request.answered host fs (.error (.storage e))
    | (.ok opened, fs) =>
      let request := { request with world := host.withFiles request.world fs }
      request.replWith host opened (some opened.backend.toJournal)

def readScript (fs : FileSystem) (path : String) : Except ShellError String :=
  match fs.read path with
  | .ok bytes =>
    match Utf8.decode? bytes with
    | some text => .ok text
    | none => .error (.io (.readFailed path "stream did not contain valid UTF-8"))
  | .error .notFound => .error (.io (.fileNotFound path))
  | .error fault => .error (.io (.readFailed path fault.message))

def run (host : Host ω) (request : Request ω) (path : String) : Finished ω :=
  let start : Except ShellError (String × Settings) := do
    let text ← readScript (host.files request.world) path
    let settings ← Settings.ofEnvironment request.env
    pure (text, settings)
  match start with
  | .error e => request.failed e
  | .ok (text, settings) =>
    let (result, session) :=
      (newSession settings request.env request.world .blank).runScript
        (setup host settings request.cacheDir none) path text
    .ofSession (result.map fun _ => session.finalCode) session session.world

def list (host : Host ω) (request : Request ω) (needle : Option String) (limit : Nat) :
    Finished ω :=
  request.withDatabase host fun opened fs =>
    ((opened.backend.find needle limit opened.db).map (historyReport request.format), fs)

def clearHistory (host : Host ω) (request : Request ω) (yes : Bool) : Finished ω :=
  if !yes then
    request.failed (.command (.executionFailed
      "Use --yes to confirm. This will delete all history."))
  else
    request.withDatabase host fun opened fs =>
      let (count, db) := opened.backend.clear opened.db
      (count.map fun count => "Deleted " ++ Numeral.naturalText count ++ " history records.\n",
        { opened with db := db }.save fs)

def clearCache (host : Host ω) (request : Request ω) : Finished ω :=
  match (Store.disk request.cacheDir).clear (host.files request.world) with
  | (.ok count, fs) =>
    request.answered host fs
      (.ok ("Removed " ++ Numeral.naturalText count ++ " cached units.\n"))
  | (.error e, fs) => request.answered host fs (.error (.cache e))

/-- Figures about the history, where there is one. -/
def historyStats (host : Host ω) (request : Request ω) :
    Except StorageError (Option Stats) × FileSystem :=
  let path := request.arguments.database
  match OpenDatabase.existing (host.files request.world) path with
  | (.ok opened, fs) => ((opened.stats fs path).map some, opened.close fs)
  | (.error .notInitialized, fs) => (.ok none, fs)
  | (.error e, fs) => (.error e, fs)

def status (host : Host ω) (request : Request ω) : Finished ω :=
  match Settings.ofEnvironment request.env with
  | .error e => request.failed e
  | .ok settings =>
    let (history, fs) := request.historyStats host
    let report (history : Option Stats) : Status := {
      database := request.arguments.database
      history := history
      cacheDir := request.cacheDir
      cacheEntries := (Store.disk request.cacheDir).size fs
      encoding := settings.encoding.name
      errors := settings.errors.name
      interactive := settings.cache.interactive
      scripts := settings.cache.scripts }
    request.answered host fs
      ((history.map fun history => (report history).report request.format).mapError .storage)

def execute (host : Host ω) (request : Request ω) : Finished ω :=
  match request.arguments.command with
  | .repl => request.repl host
  | .run file => request.run host file
  | .historyList limit => request.list host none limit
  | .historySearch needle limit => request.list host (some needle) limit
  | .historyClear yes => request.clearHistory host yes
  | .cacheClear => request.clearCache host
  | .status => request.status host

end Request
end CommandLine
end LineShell
