import LineShell.Language.Code
import LineShell.Session.Routine
import LineShell.WorkingDirectory

/-!
# Running programs of the line language

A program runs statement by statement until one fails or asks for the end of the
session.  Variables stand for the session's variables first and for the
environment's second; unknown ones are empty.
-/

namespace LineShell
namespace Language

open Output Text

variable {ω : Type}

def Part.expand (vars : Context) (env : Environment) : Part → String
  | .lit text => text
  | .var name =>
    match vars.find? name with
    | some value => value.render
    | none => env.getOr name ""

def Word.expand (vars : Context) (env : Environment) (word : Word) : String :=
  String.join (word.map (Part.expand vars env))

def joinWords (vars : Context) (env : Environment) (words : List Word) : String :=
  " ".intercalate (words.map (Word.expand vars env))

namespace Execute

/-- How a statement leaves the run: it may go on, or it ends with an outcome. -/
abbrev Step := Option Outcome

def expanded (env : Environment) (words : List Word) : Routine ω String := do
  let workspace ← Routine.get
  pure (joinWords workspace.vars env words)

def setStatus (f : Status → Status) : Routine ω Step := do
  Routine.modify fun workspace => { workspace with status := f workspace.status }
  pure none

def setVars (f : Context → Context) : Routine ω Step := do
  Routine.modify fun workspace => { workspace with vars := f workspace.vars }
  pure none

def echo (env : Environment) (stream : Stream) (words : List Word) : Routine ω Step := do
  let line ← expanded env words
  match ← Routine.put stream (Utf8.encode (line.push '\n')) with
  | .ok () => pure none
  | .error fault => pure (some (.fault ⟨"writing to " ++ stream.name, [fault.message]⟩))

/-- Changes the working directory to a path that a text names. -/
def changeTo (directory : WorkingDirectory ω) (target : String) : Routine ω Step := do
  let workspace ← Routine.get
  let path? :=
    if Path.isAbsolute target then .ok target
    else (directory.current workspace.world).map fun base => Path.join base target
  match path? with
  | .error reason => pure (some (.fault ⟨"reading current directory", [reason]⟩))
  | .ok path =>
    if directory.isDirectory path workspace.world then
      let (result, world) := directory.change path workspace.world
      Routine.modify fun workspace => { workspace with world := world }
      match result with
      | .ok () => pure none
      | .error reason => pure (some (.shell ("cd: " ++ target ++ ": " ++ reason)))
    else pure (some (.shell ("cd: no such directory: " ++ target)))

/-- Changes the working directory, to the home directory if none is named. -/
def cd (directory : WorkingDirectory ω) (env : Environment) (dir : Option Word) :
    Routine ω Step := do
  match dir with
  | some word =>
    let workspace ← Routine.get
    changeTo directory (word.expand workspace.vars env)
  | none =>
    match env.find? "HOME" with
    | some home => changeTo directory home
    | none => pure (some (.shell "cd: HOME not set"))

def exiting : Routine ω Bool := do
  let workspace ← Routine.get
  pure workspace.status.exitRequested

/-- Runs a body a number of times, until it ends with an outcome or the session is
to end. -/
def times (body : Routine ω Step) : Nat → Routine ω Step
  | 0 => pure none
  | n + 1 => do
    if ← exiting then pure none
    else match ← body with
      | some outcome => pure (some outcome)
      | none => times body n

mutual

def stmt (directory : WorkingDirectory ω) (env : Environment) : Stmt → Routine ω Step
  | .echo stream words => echo env stream words
  | .set name words => do
    let text ← expanded env words
    setVars fun vars => vars.insert name (Value.ofText text)
  | .unset name => setVars fun vars => vars.erase name
  | .cd dir => cd directory env dir
  | .succeed => pure none
  | .markFailed => setStatus fun status => { status with returnCode := some failureCode }
  | .exit code => setStatus fun status =>
    { status with returnCode := some (code.getD successCode), exitRequested := true }
  | .fail words => do
    let text ← expanded env words
    pure (some (.shell text))
  | .abort words => do
    let text ← expanded env words
    pure (some (.fault ⟨text, []⟩))
  | .loop count body => times (block directory env body) count.toNat

/-- Runs statements until one ends with an outcome or the session is to end. -/
def block (directory : WorkingDirectory ω) (env : Environment) :
    List Stmt → Routine ω Step
  | [] => pure none
  | first :: rest => do
    if ← exiting then pure none
    else match ← stmt directory env first with
      | some outcome => pure (some outcome)
      | none => block directory env rest

end

def program (directory : WorkingDirectory ω) (env : Environment) (program : Program) :
    Routine ω Outcome := do
  match ← block directory env program with
  | some outcome => pure outcome
  | none => pure .ok

end Execute

/-- The executor of the line language: a unit whose code is no program is a
fault. -/
def executor (directory : WorkingDirectory ω) : Executor ω := fun unit env =>
  match Program.decode unit.code with
  | .ok program => Execute.program directory env program
  | .error e =>
    .done (.fault ⟨"loading compiled unit from " ++ unit.filename,
      ["serialization error: " ++ e.message]⟩)

end Language
end LineShell
