import LineShell.Session.Basic
import Mathlib.Tactic

/-!
# Calls on a session, and the stages of a run

A session is used through three calls: it is given a line, it is given a unit,
or its input is interrupted.  Between these, its owner may change the variables
and the environment, or have its intake compile a script.  A unit that runs passes
three stages.  It is announced and gets a tee; its routine runs on the streams and
the workspace; and the session reports the outcome, closes the tee, records the run
and follows the working directory.  Only the middle stage depends on the executor.
-/

namespace LineShell

open History Output Text

namespace Output

/-! ## What a write and a flush leave alone -/

namespace Streams

@[simp] theorem setSink_opened (streams : Streams) (stream : Stream) (sink : Sink) :
    (streams.setSink stream sink).opened = streams.opened := by
  cases stream <;> rfl

@[simp] theorem setSink_closed (streams : Streams) (stream : Stream) (sink : Sink) :
    (streams.setSink stream sink).closed = streams.closed := by
  cases stream <;> rfl

@[simp] theorem setSink_tap (streams : Streams) (stream : Stream) (sink : Sink) :
    (streams.setSink stream sink).tap = streams.tap := by
  cases stream <;> rfl

@[simp] theorem write_opened (streams : Streams) (stream : Stream) (bytes : Bytes) :
    (streams.write stream bytes).2.opened = streams.opened := by
  unfold write
  cases htap : streams.tap <;> simp

@[simp] theorem write_closed (streams : Streams) (stream : Stream) (bytes : Bytes) :
    (streams.write stream bytes).2.closed = streams.closed := by
  unfold write
  cases htap : streams.tap <;> simp

@[simp] theorem write_isTapped (streams : Streams) (stream : Stream) (bytes : Bytes) :
    (streams.write stream bytes).2.isTapped = streams.isTapped := by
  unfold write isTapped
  cases htap : streams.tap <;> simp [htap]

@[simp] theorem flushed_tap (streams : Streams) : streams.flushed.tap = streams.tap := by
  unfold flushed flushedAt
  split <;> simp

@[simp] theorem flushed_opened (streams : Streams) :
    streams.flushed.opened = streams.opened := by
  unfold flushed flushedAt
  split <;> simp

@[simp] theorem flushed_closed (streams : Streams) :
    streams.flushed.closed = streams.closed := by
  unfold flushed flushedAt
  split <;> simp

end Streams
end Output

namespace Routine

variable {ω α : Type}

theorem run_streams (routine : Routine ω α) (streams : Streams)
    (workspace : Workspace ω) :
    (routine.run streams workspace).2.1.opened = streams.opened ∧
      (routine.run streams workspace).2.1.closed = streams.closed ∧
      (routine.run streams workspace).2.1.isTapped = streams.isTapped := by
  induction routine generalizing streams workspace with
  | done a => exact ⟨rfl, rfl, rfl⟩
  | write stream bytes next ih =>
    have hrest := ih (streams.write stream bytes).1 (streams.write stream bytes).2 workspace
    simpa [run] using hrest
  | look next ih => exact ih workspace streams workspace
  | change changed next ih => exact ih streams changed

end Routine

namespace Session

variable {γ ω η : Type}

/-! ## Calls -/

/-- A call on a session, or what its owner does to it between calls. -/
inductive Call where
  | run (line : String)
  | execute (unit : CompiledUnit)
  | interrupt
  | assign (vars : Context) (env : Environment)
  | compileFile (path text : String)

def Call.perform (setup : Setup γ ω η) (session : Session γ ω η) :
    Call → Except ShellError Bool × Session γ ω η
  | .run line => session.run setup line
  | .execute unit => session.execute setup unit
  | .interrupt => (.ok false, session.interrupt)
  | .assign vars env => (.ok false, { session with vars := vars, env := env })
  | .compileFile path text =>
    (.ok false, { session with
      intake := (session.intake.compileFile setup.tools path text session.vars).2 })

def after (session : Session γ ω η) (setup : Setup γ ω η) (calls : List Call) :
    Session γ ω η :=
  calls.foldl (fun session call => (call.perform setup session).2) session

/-- The unit that a line completes. -/
def completed? (setup : Setup γ ω η) (session : Session γ ω η) (line : String) :
    Option CompiledUnit :=
  match session.feed? setup line with
  | some (⟨_, .ready unit⟩, _) => some unit
  | _ => none

def Call.unit? (setup : Setup γ ω η) (session : Session γ ω η) :
    Call → Option CompiledUnit
  | .run line => session.completed? setup line
  | .execute unit => some unit
  | .interrupt | .assign .. | .compileFile .. => none

/-! ## The stages of a run -/

def announce (unit : CompiledUnit) (session : Session γ ω η) : Session γ ω η :=
  { session with status := { session.status with exitRequested := false } }.tell
    (.precommand unit.source)

def openTee (setup : Setup γ ω η) : Tee :=
  ⟨setup.tee.encoding, setup.tee.errors, none⟩

/-- The streams on which a unit runs. -/
def teed (setup : Setup γ ω η) (streams : Streams) : Streams :=
  streams.install setup.tee.stdout setup.tee.stderr

def workspace (setup : Setup γ ω η) (session : Session γ ω η) : Workspace ω :=
  ⟨session.vars, { session.status with exitRequested := false },
    (setup.clock session.world).2⟩

/-- What the session makes of what a routine leaves: it reports the outcome, settles
the return code, reads the clock and closes the tee. -/
def settle (setup : Setup γ ω η) (start : Float)
    (left : Outcome × Streams × Workspace ω) : Ran ω :=
  let streams := writeReport left.2.1 left.1
  { streams := ((openTee setup).close streams).2
    workspace := { left.2.2 with
      status := left.2.2.status.defaultReturnCode (codeOf left.1)
      world := (setup.clock left.2.2.world).2 }
    start := start
    stop := (setup.clock left.2.2.world).1
    captured := (openTee setup).capturedText streams }

/-- The end of a run: it is recorded, the directory is followed, and the answer
tells of the history's failure or of the wish to end. -/
def conclude (setup : Setup γ ω η) (source : String) (session : Session γ ω η)
    (ran : Ran ω) : Except ShellError Bool × Session γ ω η :=
  let recorded := (session.adopt ran).record setup source ran
  let session := recorded.2.trackDirectory setup
  match recorded.1 with
  | .ok () => (.ok session.status.exitRequested, session)
  | .error e => (.error e, session)

/-- What the history answers does not change what the session is afterwards. -/
theorem conclude_session
    (setup : Setup γ ω η) (source : String) (session : Session γ ω η) (ran : Ran ω) :
    (conclude setup source session ran).2 =
      ((session.adopt ran).record setup source ran).2.trackDirectory setup := by
  simp only [conclude]
  cases ((session.adopt ran).record setup source ran).1 <;> rfl

/-- The three stages of a run: what the executor's routine leaves stands between
what the session does before and after it. -/
def complete (setup : Setup γ ω η) (unit : CompiledUnit) (session : Session γ ω η)
    (left : Outcome × Streams × Workspace ω) : Except ShellError Bool × Session γ ω η :=
  conclude setup unit.source (session.announce unit)
    (settle setup (setup.clock session.world).1 left)

theorem writeReport_streams (streams : Streams) (outcome : Outcome) :
    (writeReport streams outcome).opened = streams.opened ∧
      (writeReport streams outcome).closed = streams.closed := by
  unfold writeReport
  cases report? outcome <;> simp

theorem settle_streams
    (setup : Setup γ ω η) (start : Float) (left : Outcome × Streams × Workspace ω) :
    (settle setup start left).streams.tap = none ∧
      (settle setup start left).streams.opened = left.2.1.opened ∧
      (settle setup start left).streams.closed = left.2.1.closed + 1 := by
  have hclosed : (settle setup start left).streams =
      (writeReport left.2.1 left.1).uninstall.flushed := rfl
  obtain ⟨hopened, hcount⟩ := writeReport_streams left.2.1 left.1
  rw [hclosed, Streams.flushed_tap, Streams.flushed_opened, Streams.flushed_closed]
  exact ⟨rfl, hopened, congrArg (· + 1) hcount⟩

theorem execute_eq_complete
    {setup : Setup γ ω η} {session : Session γ ω η} (unit : CompiledUnit)
    (huntapped : session.streams.isTapped = false) :
    session.execute setup unit =
      session.complete setup unit
        ((setup.executor unit session.env).run (teed setup session.streams)
          (session.workspace setup)) := by
  unfold execute
  have hstart : Tee.start session.streams setup.tee =
      .ok (openTee setup, teed setup session.streams) := by
    simp [Tee.start, huntapped, openTee, teed]
  simp only [tell, hstart]
  rfl

/-! ## What the last stage leaves -/

theorem trackDirectory_frame (setup : Setup γ ω η) (session : Session γ ω η) :
    (session.trackDirectory setup).intake = session.intake ∧
      (session.trackDirectory setup).streams = session.streams ∧
      (session.trackDirectory setup).status = session.status ∧
      (session.trackDirectory setup).history = session.history ∧
      ∃ moved : Option (Option String × String),
        (session.trackDirectory setup).log =
          (moved.toList.map fun move => Event.changeDirectory move.1 move.2) ++
            session.log := by
  unfold trackDirectory
  cases hcurrent : setup.directory.current session.world with
  | error reason => exact ⟨rfl, rfl, rfl, rfl, none, rfl⟩
  | ok path =>
    by_cases hsame : session.env.find? Environment.pwd = some path
    · dsimp only
      rw [if_pos hsame]
      exact ⟨rfl, rfl, rfl, rfl, none, rfl⟩
    · dsimp only
      rw [if_neg hsame]
      exact ⟨rfl, rfl, rfl, rfl, some (session.env.find? Environment.pwd, path), rfl⟩

/-- The history after a record was given to it. -/
def recorded (setup : Setup γ ω η) (record : Record) (history : η) : η :=
  match setup.journal with
  | none => history
  | some journal => (journal.append record history).2

theorem append_eq (setup : Setup γ ω η) (record : Record) (session : Session γ ω η) :
    (session.append setup record).2 =
      { session with history := recorded setup record session.history } := by
  unfold append recorded
  cases setup.journal <;> rfl

/-- What the history answers to a record. -/
def answered (setup : Setup γ ω η) (record : Record) (history : η) :
    Except ShellError Unit :=
  match setup.journal with
  | none => .ok ()
  | some journal => (journal.append record history).1

theorem append_answered
    (setup : Setup γ ω η) (record : Record) (session : Session γ ω η) :
    (session.append setup record).1 = answered setup record session.history := by
  unfold append answered
  cases setup.journal <;> rfl

/-- A run is answered with the failure of the history, or with the wish to end. -/
theorem conclude_answered
    (setup : Setup γ ω η) (source : String) (session : Session γ ω η) (ran : Ran ω) :
    let next := conclude setup source session ran
    next.1 =
      match answered setup ((session.adopt ran).recordOf source ran) session.history with
      | .ok () => .ok next.2.status.exitRequested
      | .error e => .error e := by
  intro next
  have hanswer : ((session.adopt ran).record setup source ran).1 =
      answered setup ((session.adopt ran).recordOf source ran) session.history :=
    append_answered setup _ _
  simp only [next, conclude, hanswer]
  cases answered setup ((session.adopt ran).recordOf source ran) session.history <;> rfl

/-- The end of a run keeps the intake but for its world, gives the streams of the run
to the session, forgets the status of the unit, gives the record of the run to the
history, and tells of that record and of at most one change of directory. -/
theorem conclude_spec
    (setup : Setup γ ω η) (source : String) (session : Session γ ω η) (ran : Ran ω) :
    let next := (conclude setup source session ran).2
    let record := (session.adopt ran).recordOf source ran
    next.intake = { session.intake with world := ran.workspace.world } ∧
      next.streams = ran.streams ∧ next.status = ran.workspace.status.clearCommand ∧
      next.history = recorded setup record session.history ∧
      ∃ moved : Option (Option String × String),
        next.log =
          (moved.toList.map fun move => Event.changeDirectory move.1 move.2) ++
            .postcommand record :: session.log := by
  intro next record
  have hnext : next = _ := conclude_session setup source session ran
  obtain ⟨hintake, hstreams, hstatus, hhistory, moved, hlog⟩ :=
    trackDirectory_frame setup ((session.adopt ran).record setup source ran).2
  rw [hnext, hintake, hstreams, hstatus, hhistory, hlog]
  unfold Session.record
  simp only [append_eq]
  exact ⟨rfl, rfl, rfl, rfl, moved, rfl⟩

/-- What a unit that runs leaves: the intake but for its world, the streams of its routine
with the report and the tee closed, a status that is cleared, and one record, which is
told of behind the announcement of the unit and given to the history. -/
theorem execute_spec
    {setup : Setup γ ω η} {session : Session γ ω η} (unit : CompiledUnit)
    (huntapped : session.streams.isTapped = false) :
    let left := (setup.executor unit session.env).run (teed setup session.streams)
      (session.workspace setup)
    let ran := settle setup (setup.clock session.world).1 left
    let record := ((session.announce unit).adopt ran).recordOf unit.source ran
    let next := (session.execute setup unit).2
    next.intake = { session.intake with world := ran.workspace.world } ∧
      next.streams = ran.streams ∧ next.status = ran.workspace.status.clearCommand ∧
      next.history = recorded setup record session.history ∧
      ∃ moved : Option (Option String × String),
        next.log =
          (moved.toList.map fun move => Event.changeDirectory move.1 move.2) ++
            .postcommand record :: .precommand unit.source :: session.log := by
  intro left ran record next
  have hnext : next = (conclude setup unit.source (session.announce unit) ran).2 :=
    congrArg Prod.snd (execute_eq_complete unit huntapped)
  rw [hnext]
  exact conclude_spec setup unit.source (session.announce unit) ran

/-- A run closes the tee that it opens. -/
theorem execute_isTapped
    (setup : Setup γ ω η) {session : Session γ ω η} (unit : CompiledUnit)
    (huntapped : session.streams.isTapped = false) :
    (session.execute setup unit).2.streams.isTapped = false := by
  have hstreams : (session.execute setup unit).2.streams = _ :=
    (execute_spec unit huntapped).2.1
  rw [hstreams, Streams.isTapped, (settle_streams _ _ _).1]
  rfl

/-- A unit that runs leaves one record, with its source as the input, which is told of
and given to the history. -/
theorem execute_records
    {setup : Setup γ ω η} {session : Session γ ω η} (unit : CompiledUnit)
    (huntapped : session.streams.isTapped = false) :
    ∃ record : Record, record.input = unit.source ∧
      .postcommand record ∈ (session.execute setup unit).2.log ∧
      (session.execute setup unit).2.history = recorded setup record session.history := by
  obtain ⟨-, -, -, hhistory, moved, hlog⟩ := execute_spec unit huntapped
  refine ⟨_, rfl, ?_, hhistory⟩
  rw [hlog]
  simp

/-! ## What a line does -/

/-- What a line does to a session: it is nothing, it waits with others, it shows that a
source is rejected, or it completes a unit, which runs. -/
theorem run_cases (setup : Setup γ ω η) (session : Session γ ω η) (line : String) :
    session.feed? setup line = none ∧ session.run setup line = (.ok false, session) ∨
      ∃ source intake,
        session.feed? setup line = some (⟨source, .awaiting⟩, intake) ∧
            session.run setup line = (.ok false, { session with intake := intake }) ∨
          (∃ e, session.feed? setup line = some (⟨source, .rejected e⟩, intake) ∧
            session.run setup line =
              (.ok false, { session with intake := intake }.reportRejection e)) ∨
          ∃ unit, session.feed? setup line = some (⟨source, .ready unit⟩, intake) ∧
            session.run setup line = { session with intake := intake }.execute setup unit := by
  unfold run
  cases hfed : session.feed? setup line with
  | none => exact Or.inl ⟨rfl, rfl⟩
  | some fed =>
    right
    obtain ⟨⟨source, state⟩, intake⟩ := fed
    refine ⟨source, intake, ?_⟩
    cases state with
    | awaiting => exact Or.inl ⟨rfl, rfl⟩
    | rejected e => exact Or.inr (Or.inl ⟨e, rfl, rfl⟩)
    | ready unit => exact Or.inr (Or.inr ⟨unit, rfl, rfl⟩)

variable {setup : Setup γ ω η} {session : Session γ ω η} {line : String}

/-- A line that completes a unit runs it in the session that took the line in. -/
theorem run_of_completed
    {unit : CompiledUnit} (hunit : session.completed? setup line = some unit) :
    ∃ source intake,
      session.feed? setup line = some (⟨source, .ready unit⟩, intake) ∧
        session.run setup line =
          { session with intake := intake }.execute setup unit := by
  rcases run_cases setup session line with
    ⟨hfed, -⟩ | ⟨source, intake, ⟨hfed, -⟩ | ⟨e, hfed, -⟩ | ⟨found, hfed, hrun⟩⟩
  · simp [completed?, hfed] at hunit
  · simp [completed?, hfed] at hunit
  · simp [completed?, hfed] at hunit
  · obtain rfl : found = unit := by simpa [completed?, hfed] using hunit
    exact ⟨source, intake, hfed, hrun⟩

/-- Any other line only moves the intake, and a rejected source is reported. -/
theorem run_of_not_completed (hnone : session.completed? setup line = none) :
    ∃ (intake : Intake γ ω) (streams : Streams),
      (streams = session.streams ∨
        ∃ bytes, streams = (session.streams.write .stderr bytes).2) ∧
      session.run setup line =
        (.ok false, { session with intake := intake, streams := streams }) := by
  rcases run_cases setup session line with
    ⟨-, hrun⟩ | ⟨source, intake, ⟨-, hrun⟩ | ⟨e, -, hrun⟩ | ⟨unit, hfed, -⟩⟩
  · exact ⟨session.intake, session.streams, Or.inl rfl, hrun⟩
  · exact ⟨intake, session.streams, Or.inl rfl, hrun⟩
  · exact ⟨intake, _, Or.inr ⟨Utf8.encode (e.message ++ "\n"), rfl⟩, hrun⟩
  · simp [completed?, hfed] at hnone

end Session
end LineShell
