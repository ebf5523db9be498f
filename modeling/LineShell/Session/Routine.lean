import LineShell.CompiledUnit
import LineShell.Environment
import LineShell.History.Record
import LineShell.Output.Streams
import LineShell.Value

/-!
# What a unit does while it runs

A routine is what an executor makes of a unit: a tree of writes to the streams
and of looks at, and changes to, what the unit may reach.  It reaches the streams
through writes alone, so whatever it does, it can neither open nor close a tee.
-/

namespace LineShell

open Output

/-- What a running unit may reach besides the streams: the variables, the status
and the world that holds the working directory. -/
structure Workspace (ω : Type) where
  vars : Context
  status : Status
  world : ω

/-- A fault: a message and its causes, the nearest one first. -/
structure Fault where
  message : String
  causes : List String
  deriving DecidableEq, Repr

namespace Fault

def indented (width : Nat) (text : String) : String :=
  String.ofList (text.toList.flatMap fun c =>
    if c = '\n' then '\n' :: List.replicate width ' ' else [c])

def column (n : Nat) : String :=
  let digits := Text.Numeral.natural n
  String.ofList (List.replicate (5 - digits.length) ' ' ++ digits)

/-- Several causes, each with its number. -/
def numbered : Nat → List String → List String
  | _, [] => []
  | n, cause :: rest => (column n ++ ": " ++ indented 7 cause) :: numbered (n + 1) rest

/-- The full report of a fault: its message and, below it, its causes. -/
def render (fault : Fault) : String :=
  match fault.causes with
  | [] => fault.message
  | [cause] => fault.message ++ "\n\nCaused by:\n    " ++ indented 4 cause
  | causes => fault.message ++ "\n\nCaused by:\n" ++ "\n".intercalate (numbered 0 causes)

end Fault

/-- How the run of a unit ends: well, with a message for the user, with a fault,
or with a panic. -/
inductive Outcome where
  | ok
  | shell (message : String)
  | fault (fault : Fault)
  | panic (message : String)
  deriving DecidableEq, Repr

/-- What a unit does, step by step, until it ends with a result. -/
inductive Routine (ω α : Type) where
  | done (result : α)
  | write (stream : Stream) (bytes : Bytes) (next : Except WriteFault Unit → Routine ω α)
  | look (next : Workspace ω → Routine ω α)
  | change (workspace : Workspace ω) (next : Routine ω α)

namespace Routine

variable {ω α β : Type}

def bind : Routine ω α → (α → Routine ω β) → Routine ω β
  | done a, next => next a
  | write stream bytes k, next => write stream bytes fun result => bind (k result) next
  | look k, next => look fun workspace => bind (k workspace) next
  | change workspace k, next => change workspace (bind k next)

instance : Monad (Routine ω) where
  pure := done
  bind := bind

def put (stream : Stream) (bytes : Bytes) : Routine ω (Except WriteFault Unit) :=
  write stream bytes done

def get : Routine ω (Workspace ω) :=
  look done

def modify (f : Workspace ω → Workspace ω) : Routine ω Unit :=
  look fun workspace => change (f workspace) (done ())

/-- Runs a routine on streams and a workspace. -/
def run : Routine ω α → Streams → Workspace ω → α × Streams × Workspace ω
  | done a, streams, workspace => (a, streams, workspace)
  | write stream bytes k, streams, workspace =>
    let (result, streams) := streams.write stream bytes
    run (k result) streams workspace
  | look k, streams, workspace => run (k workspace) streams workspace
  | change workspace k, streams, _ => run k streams workspace

theorem run_bind (r : Routine ω α) (next : α → Routine ω β) (streams : Streams)
    (workspace : Workspace ω) :
    run (r.bind next) streams workspace =
      (let (a, streams, workspace) := run r streams workspace
       run (next a) streams workspace) := by
  induction r generalizing streams workspace with
  | done a => rfl
  | write stream bytes k ih => simp only [bind, run, ih]
  | look k ih => simp only [bind, run, ih]
  | change workspace k ih => simp only [bind, run, ih]

end Routine

/-- What an executor makes of a unit in an environment. -/
abbrev Executor (ω : Type) := CompiledUnit → Environment → Routine ω Outcome

end LineShell
