import LineShell.Text.Numeral

/-!
# History records and the status of a command

One record is kept for each unit that ran: its source, when it ran, its return
code and the output that the user saw.
-/

namespace LineShell

def successCode : Int32 := 0

def failureCode : Int32 := 1

namespace History

/-- The record of a unit that ran; times are seconds since the epoch. -/
structure Record where
  input : String
  start : Float
  stop : Float
  returnCode : Option Int32
  output : Option String

namespace Record

def duration (record : Record) : Float :=
  record.stop - record.start

def succeeded (record : Record) : Bool :=
  record.returnCode = some successCode

/-- Whether there is a return code other than that of a success. -/
def failed (record : Record) : Bool :=
  match record.returnCode with
  | some code => code ≠ successCode
  | none => false

end Record

/-- What the user saw: the captured text and the output that came another way,
with a line end between them; an empty capture counts as none. -/
def mergeOutput (captured other : Option String) : Option String :=
  match captured.filter (fun text => !text.isEmpty), other with
  | none, other => other
  | some text, none => some text
  | some text, some other => some (text ++ "\n" ++ other)

end History

/-- What a running unit has settled: its return code, output from outside the
streams, and whether the session is to end. -/
structure Status where
  returnCode : Option Int32
  output : Option String
  exitRequested : Bool
  deriving DecidableEq, Repr

namespace Status

def initial : Status :=
  ⟨none, none, false⟩

def defaultReturnCode (status : Status) (code : Int32) : Status :=
  { status with returnCode := some (status.returnCode.getD code) }

def clearCommand (status : Status) : Status :=
  { status with returnCode := none, output := none }

end Status
end LineShell
