import LineShell.CommandLine.Execute
import LineShell.Proofs.Session.Unrecorded

/-!
# Each unit settles its own return code

The status is shared by all units of a session, yet a unit finds in it nothing of the
units before: the record of a unit takes its return code and its output out again, and
the wish to end is taken back before the next unit runs.  So the return code of a unit is
the one that it settled, or the one of its outcome.  What stays of it is told in the
environment.
-/

namespace LineShell

open History Output Text

namespace Session

variable {γ ω η : Type}

/-! ## What stays of the return code -/

theorem trackDirectory_lastReturnCode (setup : Setup γ ω η) (session : Session γ ω η) :
    (session.trackDirectory setup).lastReturnCode = session.lastReturnCode ∧
      (session.trackDirectory setup).env.find? Environment.lastReturnCode =
        session.env.find? Environment.lastReturnCode := by
  unfold trackDirectory
  cases setup.directory.current session.world with
  | error reason => exact ⟨rfl, rfl⟩
  | ok path =>
    dsimp only
    split_ifs
    · exact ⟨rfl, rfl⟩
    · refine ⟨rfl, ?_⟩
      unfold tell
      cases session.env.find? Environment.pwd <;>
        simp [Bindings.find?_insert, Environment.pwd, Environment.oldPwd,
          Environment.lastReturnCode]

/-- Why the history refuses a record. -/
def refusal? (setup : Setup γ ω η) (record : Record) (history : η) : Option ShellError :=
  setup.journal.bind fun journal =>
    match (journal.append record history).1 with
    | .ok () => none
    | .error e => some e

theorem answered_eq (setup : Setup γ ω η) (record : Record) (history : η) :
    answered setup record history =
      match refusal? setup record history with
      | none => .ok ()
      | some e => .error e := by
  unfold answered refusal?
  cases setup.journal with
  | none => rfl
  | some journal =>
    dsimp only [Option.bind_some]
    cases (journal.append record history).1 <;> rfl

theorem record_code
    (setup : Setup γ ω η) (source : String) (ran : Ran ω) (session : Session γ ω η) :
    let record := session.recordOf source ran
    let next := (session.record setup source ran).2
    next.lastReturnCode = record.returnCode ∧
      next.env = session.env.insert Environment.lastReturnCode
        (Numeral.integerText (record.returnCode.getD successCode).toInt) := by
  unfold Session.record
  simp only [append_eq]
  exact ⟨rfl, rfl⟩

/-- The code of a run is kept and shown in the environment, and the run is answered with
its wish to end unless the history refuses its record. -/
theorem conclude_code
    {setup : Setup γ ω η} {source : String} {session : Session γ ω η} {ran : Ran ω}
    {code : Int32} (hcode : ran.workspace.status.returnCode = some code) :
    let next := conclude setup source session ran
    let record := (session.adopt ran).recordOf source ran
    next.1 = (match refusal? setup record session.history with
      | none => .ok ran.workspace.status.exitRequested
      | some e => .error e) ∧
      next.2.lastReturnCode = some code ∧
      next.2.env.find? Environment.lastReturnCode =
        some (Numeral.integerText code.toInt) := by
  intro next record
  have hrecord : ((session.adopt ran).recordOf source ran).returnCode = some code := hcode
  have hnext : next.2 = _ := conclude_session setup source session ran
  obtain ⟨hlast, henv⟩ := trackDirectory_lastReturnCode setup
    ((session.adopt ran).record setup source ran).2
  obtain ⟨hrecorded, hshown⟩ := record_code setup source ran (session.adopt ran)
  refine ⟨?_, ?_, ?_⟩
  · have hstatus : next.2.status = ran.workspace.status.clearCommand :=
      (conclude_spec setup source session ran).2.2.1
    have hexit : next.2.status.exitRequested = ran.workspace.status.exitRequested := by
      rw [hstatus]
      rfl
    have hanswer : next.1 = _ := conclude_answered setup source session ran
    rw [hanswer, hexit, answered_eq]
    cases refusal? setup record session.history <;> rfl
  · rw [hnext]
    exact (hlast.trans hrecorded).trans hrecord
  · rw [hnext]
    refine henv.trans ?_
    rw [hshown, Bindings.find?_insert, if_pos rfl, hrecord, Option.getD_some]

/-! ## What a unit finds -/

/-- What the routine of a unit leaves that runs in a session whose status is as at first. -/
def leftBy (setup : Setup γ ω η) (unit : CompiledUnit) (session : Session γ ω η) :
    Outcome × Streams × Workspace ω :=
  (setup.executor unit session.env).run (teed setup session.streams)
    ⟨session.vars, .initial, (setup.clock session.world).2⟩

theorem eq_initial_of_rest
    {status : Status} (hcode : status.returnCode = none) (houtput : status.output = none) :
    { status with exitRequested := false } = Status.initial := by
  obtain ⟨code, output, exitRequested⟩ := status
  obtain rfl : code = none := hcode
  obtain rfl : output = none := houtput
  rfl

/-- The wish to end that a status was left with is nothing to the next unit. -/
theorem execute_withStatus
    (setup : Setup γ ω η) (unit : CompiledUnit) (session : Session γ ω η) {status : Status}
    (hcode : status.returnCode = none) (houtput : status.output = none) :
    { session with status := status }.execute setup unit =
      { session with status := .initial }.execute setup unit := by
  unfold execute
  dsimp only
  rw [eq_initial_of_rest hcode houtput]
  rfl

theorem codeOf_eq (outcome : Outcome) : codeOf outcome = if outcome = .ok then 0 else 1 := by
  cases outcome <;> rfl

theorem execute_settles
    {setup : Setup γ ω η} {session : Session γ ω η} (unit : CompiledUnit)
    (huntapped : session.streams.isTapped = false)
    (hcode : session.status.returnCode = none) (houtput : session.status.output = none) :
    let left := session.leftBy setup unit
    let code := left.2.2.status.returnCode.getD (if left.1 = .ok then 0 else 1)
    let next := session.execute setup unit
    ∃ (record : Record) (moved : Option (Option String × String)),
      record.input = unit.source ∧ record.returnCode = some code ∧
      record.output = mergeOutput
        (some ((openTee setup).capturedText (writeReport left.2.1 left.1)))
        left.2.2.status.output ∧
      next.2.log = (moved.toList.map fun move => Event.changeDirectory move.1 move.2) ++
        .postcommand record :: .precommand unit.source :: session.log ∧
      next.2.history = recorded setup record session.history ∧
      next.1 = (match refusal? setup record session.history with
        | none => .ok left.2.2.status.exitRequested
        | some e => .error e) ∧
      next.2.lastReturnCode = some code ∧
      next.2.env.find? Environment.lastReturnCode =
        some (Numeral.integerText code.toInt) := by
  intro left code next
  -- The wish to end is all that earlier units leave in the status, and it is taken back.
  have hworkspace : session.workspace setup =
      ⟨session.vars, .initial, (setup.clock session.world).2⟩ := by
    rw [workspace, eq_initial_of_rest hcode houtput]
  have hleft : (setup.executor unit session.env).run (teed setup session.streams)
      (session.workspace setup) = left := by
    rw [hworkspace]
    rfl
  have hnext : next = conclude setup unit.source (session.announce unit)
      (settle setup (setup.clock session.world).1 left) := by
    rw [← hleft]
    exact execute_eq_complete unit huntapped
  have hsettled : (settle setup (setup.clock session.world).1 left).workspace.status.returnCode =
      some code := by
    dsimp only [code]
    rw [← codeOf_eq]
    rfl
  obtain ⟨-, -, -, hhistory, moved, hlog⟩ := execute_spec unit huntapped
  rw [hleft] at hhistory hlog
  obtain ⟨hanswer, hlast, hshown⟩ := conclude_code hsettled
  rw [← hnext] at hanswer hlast hshown
  exact ⟨_, moved, rfl, hsettled, rfl, hlog, hhistory, hanswer, hlast, hshown⟩

/-- Let a unit run in any session that calls lead to.  Its routine starts with a status in
which nothing is settled.  The record of the unit is told of and given to the history; its
return code is the one that the routine left in the status, and else 0 or 1 by the
outcome; and so are the last return code of the session and its text in the environment.
The answer is whether this unit asked for the end, unless the history refuses the record.
And whatever other units, under whatever executor, had left in the status before, the
unit would be answered alike and leave the same. -/
theorem return_code_settled_by_each_unit
    (setup : Setup γ ω η) (service : γ) (world : ω) (history : η) (stdout stderr : Sink)
    (env : Environment) (calls : List Call) (unit : CompiledUnit) :
    let first := start service world history (.ofSinks stdout stderr) env
    let session := first.after setup calls
    let left := session.leftBy setup unit
    let code := left.2.2.status.returnCode.getD (if left.1 = .ok then 0 else 1)
    let next := session.execute setup unit
    (∃ (record : Record) (moved : Option (Option String × String)),
      record.input = unit.source ∧ record.returnCode = some code ∧
      record.output = mergeOutput
        (some ((openTee setup).capturedText (writeReport left.2.1 left.1)))
        left.2.2.status.output ∧
      next.2.log = (moved.toList.map fun move => Event.changeDirectory move.1 move.2) ++
        .postcommand record :: .precommand unit.source :: session.log ∧
      next.2.history = recorded setup record session.history ∧
      next.1 = (match refusal? setup record session.history with
        | none => .ok left.2.2.status.exitRequested
        | some e => .error e) ∧
      next.2.lastReturnCode = some code ∧
      next.2.env.find? Environment.lastReturnCode =
        some (Numeral.integerText code.toInt)) ∧
      ∀ (executor : Executor ω) (earlier : List Call),
        let other := first.after { setup with executor := executor } earlier
        { session with status := other.status }.execute setup unit = next := by
  intro first session left code next
  obtain ⟨-, hcode, houtput⟩ :=
    rest_after setup service world history stdout stderr env calls
  constructor
  · exact execute_settles unit
      (isTapped_after setup service world history stdout stderr env calls) hcode houtput
  · intro executor earlier other
    obtain ⟨-, hother, hnone⟩ := rest_after { setup with executor := executor } service world
      history stdout stderr env earlier
    rw [execute_withStatus setup unit session hother hnone]
    exact (execute_withStatus setup unit session hcode houtput).symm

/-- A unit that asks for the end of the session is not answered so by a history that
refuses its record; and the code of a unit is seen by the next one in the environment. -/
theorem wish_to_end_lost_with_record :
    let settings : Settings := ⟨.utf8, .replace, .none, .none, .off⟩
    let refusing : Journal Database ShellError :=
      ⟨fun _ db => (.error (.storage (.database "disk gone")), db)⟩
    let setup := CommandLine.setup Host.ofFiles settings "/cache" (some refusing)
    let session := CommandLine.newSession settings .empty ⟨.empty, [], 0⟩ ⟨none, none⟩
    let unit (stmt : Language.Stmt) : CompiledUnit :=
      ⟨"", .single, stdinName, Language.Program.encode [stmt]⟩
    let left := session.leftBy setup (unit (.exit none))
    let shown (stmt : Language.Stmt) :=
      ((session.after setup [.execute (unit stmt),
        .execute (unit (.echo .stdout [[.var "LAST_RETURN_CODE"]]))]).streams.sink
          .stdout).written
    left.2.2.status.exitRequested = true ∧
      (session.execute setup (unit (.exit none))).1 =
        .error (.storage (.database "disk gone")) ∧
      shown .succeed = Utf8.encode "0\n" ∧ shown .markFailed = Utf8.encode "1\n" := by
  decide +kernel +zetaReduce

end Session
end LineShell
