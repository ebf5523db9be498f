import LineShell.History.Journal
import LineShell.Intake
import LineShell.Session.Routine
import LineShell.WorkingDirectory

/-!
# Sessions

A session takes in lines, runs each unit that they form under a tee of its own,
and adds a record of the unit to the history.  Whatever a unit does, the tee is
closed, the record is made, and the environment is brought up to date, before a
failure of the history is reported.
-/

namespace LineShell

open History Output Text

/-- What a session tells those who watch it. -/
inductive Event where
  | precommand (source : String)
  | postcommand (record : Record)
  | changeDirectory (old : Option String) (new : String)

namespace Session

/-- What a session works with. -/
structure Setup (γ ω η : Type) where
  tools : Intake.Tools γ ω
  executor : Executor ω
  directory : WorkingDirectory ω
  clock : ω → Float × ω
  journal : Option (Journal η ShellError)
  tee : TeeSettings

end Session

/-- The state of a session.  The events are kept with the last one first. -/
structure Session (γ ω η : Type) where
  intake : Intake γ ω
  vars : Context
  env : Environment
  streams : Streams
  status : Status
  lastReturnCode : Option Int32
  log : List Event
  history : η

namespace Session

variable {γ ω η : Type}

def start (service : γ) (world : ω) (history : η) (streams : Streams)
    (env : Environment) : Session γ ω η :=
  ⟨.idle service world, .empty, env, streams, .initial, none, [], history⟩

/-- The world that the cache and the working directory are in. -/
def world (session : Session γ ω η) : ω :=
  session.intake.world

def setWorld (session : Session γ ω η) (world : ω) : Session γ ω η :=
  { session with intake := { session.intake with world := world } }

/-- The events in the order in which they came. -/
def events (session : Session γ ω η) : List Event :=
  session.log.reverse

def tell (session : Session γ ω η) (event : Event) : Session γ ω η :=
  { session with log := event :: session.log }

/-- The prompt for the next line. -/
def prompt (session : Session γ ω η) : String :=
  if session.intake.isAccumulating then "... " else "$ "

/-- Drops the lines that wait. -/
def interrupt (session : Session γ ω η) : Session γ ω η :=
  { session with intake := session.intake.reset }

/-- What the session itself reports of an outcome. -/
def report? : Outcome → Option String
  | .ok => none
  | .shell message => some (message ++ "\n")
  | .fault fault => some ("error: " ++ fault.render ++ "\n")
  | .panic message => some ("panic: " ++ message ++ "\n")

/-- The return code of an outcome that settled none. -/
def codeOf : Outcome → Int32
  | .ok => successCode
  | _ => failureCode

/-- Writes the report of an outcome to the standard error stream; a stream that
refuses it does no harm. -/
def writeReport (streams : Streams) (outcome : Outcome) : Streams :=
  match report? outcome with
  | none => streams
  | some text => (streams.write .stderr (Utf8.encode text)).2

/-- What a run leaves behind: the streams with the tee closed, the workspace, the
times and the captured text. -/
structure Ran (ω : Type) where
  streams : Streams
  workspace : Workspace ω
  start : Float
  stop : Float
  captured : String

/-- Runs a unit under an open tee, and closes it. -/
def runUnder (setup : Setup γ ω η) (unit : CompiledUnit) (session : Session γ ω η)
    (tee : Tee) (streams : Streams) : Ran ω :=
  let (start, world) := setup.clock session.world
  let routine := setup.executor unit session.env
  let (outcome, streams, workspace) :=
    routine.run streams ⟨session.vars, session.status, world⟩
  let streams := writeReport streams outcome
  let status := workspace.status.defaultReturnCode (codeOf outcome)
  let (stop, world) := setup.clock workspace.world
  { streams := (tee.close streams).2
    workspace := { workspace with status := status, world := world }
    start := start
    stop := stop
    captured := tee.capturedText streams }

/-- The session after a run, before it is recorded. -/
def adopt (session : Session γ ω η) (ran : Ran ω) : Session γ ω η :=
  { session.setWorld ran.workspace.world with
    vars := ran.workspace.vars
    status := ran.workspace.status
    streams := ran.streams }

def recordOf (session : Session γ ω η) (source : String) (ran : Ran ω) : Record where
  input := source
  start := ran.start
  stop := ran.stop
  returnCode := session.status.returnCode
  output := mergeOutput (some ran.captured) session.status.output

def append (setup : Setup γ ω η) (record : Record) (session : Session γ ω η) :
    Except ShellError Unit × Session γ ω η :=
  match setup.journal with
  | none => (.ok (), session)
  | some journal =>
    let (result, history) := journal.append record session.history
    (result, { session with history := history })

def record (setup : Setup γ ω η) (source : String) (ran : Ran ω)
    (session : Session γ ω η) : Except ShellError Unit × Session γ ω η :=
  let record := session.recordOf source ran
  let code := Numeral.integerText (record.returnCode.getD successCode).toInt
  let session := { session with
    lastReturnCode := record.returnCode
    env := session.env.insert Environment.lastReturnCode code }
  let (result, session) := (session.tell (.postcommand record)).append setup record
  (result, { session with status := session.status.clearCommand })

def trackDirectory (setup : Setup γ ω η) (session : Session γ ω η) : Session γ ω η :=
  match setup.directory.current session.world with
  | .error _ => session
  | .ok path =>
    let old := session.env.find? Environment.pwd
    if old = some path then session
    else
      let env := match old with
        | some old => session.env.insert Environment.oldPwd old
        | none => session.env
      { session with env := env.insert Environment.pwd path }.tell
        (.changeDirectory old path)

/-- Runs a unit and records it.  The answer tells whether the unit asked for the
end of the session. -/
def execute (setup : Setup γ ω η) (unit : CompiledUnit) (session : Session γ ω η) :
    Except ShellError Bool × Session γ ω η :=
  let session := { session with status := { session.status with exitRequested := false } }
  let session := session.tell (.precommand unit.source)
  match Tee.start session.streams setup.tee with
  | .error e => (.error (.tee e), session)
  | .ok (tee, streams) =>
    let ran := runUnder setup unit session tee streams
    let (result, session) := (session.adopt ran).record setup unit.source ran
    let session := session.trackDirectory setup
    match result with
    | .ok () => (.ok session.status.exitRequested, session)
    | .error e => (.error e, session)

/-- Reports a source that does not compile. -/
def reportRejection (e : CompileError) (session : Session γ ω η) : Session γ ω η :=
  { session with
    streams := (session.streams.write .stderr (Utf8.encode (e.message ++ "\n"))).2 }

def withoutLineEnd (line : List Char) : List Char :=
  let line := if line.getLast? = some '\n' then line.dropLast else line
  if line.getLast? = some '\r' then line.dropLast else line

/-- Takes a line into the intake; a blank line while no line waits is nothing. -/
def feed? (setup : Setup γ ω η) (line : String) (session : Session γ ω η) :
    Option (Pushed × Intake γ ω) :=
  let text := withoutLineEnd line.toList
  if session.intake.isAccumulating then
    if text.isEmpty then some (session.intake.emptyLine setup.tools session.vars)
    else some (session.intake.push setup.tools (String.ofList text) session.vars)
  else if (trim text).isEmpty then none
  else some (session.intake.push setup.tools (String.ofList (trimStart text)) session.vars)

/-- Takes in a line and runs the unit that it completes.  The answer tells whether
the unit asked for the end of the session. -/
def run (setup : Setup γ ω η) (line : String) (session : Session γ ω η) :
    Except ShellError Bool × Session γ ω η :=
  match session.feed? setup line with
  | none => (.ok false, session)
  | some (pushed, intake) =>
    let session := { session with intake := intake }
    match pushed.state with
    | .awaiting => (.ok false, session)
    | .rejected e => (.ok false, session.reportRejection e)
    | .ready unit => session.execute setup unit

/-- Compiles and runs a script. -/
def runScript (setup : Setup γ ω η) (path text : String) (session : Session γ ω η) :
    Except ShellError Bool × Session γ ω η :=
  let (result, intake) := session.intake.compileFile setup.tools path text session.vars
  let session := { session with intake := intake }
  match result with
  | .ok unit => session.execute setup unit
  | .error e => (.error (.compile e), session)

end Session
end LineShell
