import LineShell.Proofs.Session.Accounting

/-!
# A history that fails is noticed last

Nothing that a session does asks what its history holds or how it took a record, until
the answer of a run is given.  So a session without its history can be run by itself:
what a call makes of it is what the call makes of the whole session, with the history
left out.  Two runs that differ in their histories alone are then compared through this
one run, and differ in nothing but the histories and what these answered.
-/

namespace LineShell

open History Output Text

namespace History

/-- The journal that takes every record. -/
def Journal.reliable {η ε : Type} (keep : Record → η → η) : Journal η ε where
  append record history := (.ok (), keep record history)

end History

namespace Session

variable {γ ω η θ : Type}

/-! ## Sessions without their histories -/

/-- A setup with another journal. -/
def Setup.keeping (setup : Setup γ ω η) (journal : Journal θ ShellError) :
    Setup γ ω θ :=
  ⟨setup.tools, setup.executor, setup.directory, setup.clock, some journal, setup.tee⟩

def Setup.unrecorded (setup : Setup γ ω η) : Setup γ ω Unit :=
  ⟨setup.tools, setup.executor, setup.directory, setup.clock, none, setup.tee⟩

/-- All of a session besides its history. -/
def besides (session : Session γ ω η) : Session γ ω Unit :=
  ⟨session.intake, session.vars, session.env, session.streams, session.status,
    session.lastReturnCode, session.log, ()⟩

theorem record_besides
    (setup : Setup γ ω η) (source : String) (ran : Ran ω) (session : Session γ ω η) :
    (session.record setup source ran).2.besides =
      (session.besides.record setup.unrecorded source ran).2 := by
  unfold Session.record
  simp only [append_eq]
  rfl

theorem trackDirectory_besides (setup : Setup γ ω η) (session : Session γ ω η) :
    (session.trackDirectory setup).besides =
      session.besides.trackDirectory setup.unrecorded := by
  unfold trackDirectory
  have hcurrent : setup.unrecorded.directory.current session.besides.world =
      setup.directory.current session.world := rfl
  rw [hcurrent]
  cases setup.directory.current session.world with
  | error reason => rfl
  | ok path =>
    dsimp only
    have henv : session.besides.env = session.env := rfl
    rw [henv]
    split_ifs
    · rfl
    · rfl

theorem conclude_besides
    (setup : Setup γ ω η) (source : String) (session : Session γ ω η) (ran : Ran ω) :
    (conclude setup source session ran).2.besides =
      (conclude setup.unrecorded source session.besides ran).2 := by
  rw [conclude_session, conclude_session, trackDirectory_besides, record_besides]
  rfl

theorem execute_besides
    (setup : Setup γ ω η) (unit : CompiledUnit) (session : Session γ ω η) :
    (session.execute setup unit).2.besides =
      (session.besides.execute setup.unrecorded unit).2 := by
  cases htapped : session.streams.isTapped with
  | false =>
    have huntapped : session.besides.streams.isTapped = false := htapped
    rw [execute_eq_complete unit htapped, execute_eq_complete unit huntapped]
    exact conclude_besides setup unit.source (session.announce unit) _
  | true =>
    unfold execute
    simp [Tee.start, htapped, besides, tell]

/-- A call without a history goes as one with a history does, if the runs of units
do. -/
theorem Call.perform_related
    (setup : Setup γ ω η)
    (related : Except ShellError Bool × Session γ ω η →
      Except ShellError Bool × Session γ ω Unit → Prop)
    (hidle : ∀ session : Session γ ω η,
      related (.ok false, session) (.ok false, session.besides))
    (hexecute : ∀ (unit : CompiledUnit) (session : Session γ ω η),
      related (session.execute setup unit) (session.besides.execute setup.unrecorded unit))
    (session : Session γ ω η) (call : Call) :
    related (call.perform setup session)
      (call.perform setup.unrecorded session.besides) := by
  cases call with
  | run line =>
    have hfeed : session.besides.feed? setup.unrecorded line = session.feed? setup line := rfl
    unfold Call.perform Session.run
    dsimp only
    rw [hfeed]
    cases hfed : session.feed? setup line with
    | none => exact hidle session
    | some fed =>
      obtain ⟨⟨source, state⟩, intake⟩ := fed
      cases state with
      | awaiting => exact hidle { session with intake := intake }
      | rejected e => exact hidle ({ session with intake := intake }.reportRejection e)
      | ready unit => exact hexecute unit { session with intake := intake }
  | execute unit => exact hexecute unit session
  | interrupt => exact hidle session.interrupt
  | assign vars env => exact hidle { session with vars := vars, env := env }
  | compileFile path text =>
    exact hidle { session with
      intake := (session.intake.compileFile setup.tools path text session.vars).2 }

/-- What a call makes of a session besides its history does not depend on the history. -/
theorem Call.perform_besides
    (setup : Setup γ ω η) (session : Session γ ω η) (call : Call) :
    (call.perform setup session).2.besides =
      (call.perform setup.unrecorded session.besides).2 :=
  Call.perform_related setup (fun whole bare => whole.2.besides = bare.2) (fun _ => rfl)
    (execute_besides setup) session call

theorem after_besides
    (setup : Setup γ ω η) (session : Session γ ω η) (calls : List Call) :
    (session.after setup calls).besides = session.besides.after setup.unrecorded calls := by
  induction calls generalizing session with
  | nil => rfl
  | cons call rest ih =>
    have hnext := ih (call.perform setup session).2
    rw [Call.perform_besides] at hnext
    exact hnext

/-- Between calls no tap is installed, and the status holds nothing of a unit but the
wish to end, whatever became of the records. -/
theorem rest_after
    (setup : Setup γ ω η) (service : γ) (world : ω) (history : η) (stdout stderr : Sink)
    (env : Environment) (calls : List Call) :
    let session := (start service world history (.ofSinks stdout stderr) env).after setup calls
    session.streams.tap = none ∧ session.status.returnCode = none ∧
      session.status.output = none := by
  intro session
  have hlisted : (setup.listing (.reliable fun _ history => history)).journal =
      some (Journal.reliable fun _ history => history).listing := rfl
  obtain ⟨episodes, -, haccount⟩ :=
    (account_start service world history stdout stderr env).after hlisted calls
  have hsame := (after_besides setup
      (start service world history (.ofSinks stdout stderr) env) calls).trans
    (after_besides (setup.listing (.reliable fun _ history => history))
      (start service world (history, []) (.ofSinks stdout stderr) env) calls).symm
  refine ⟨?_, ?_, ?_⟩
  · exact (congrArg (fun session => session.streams.tap) hsame).trans haccount.untapped
  · exact (congrArg (fun session => session.status.returnCode) hsame).trans
      haccount.returnCode_eq
  · exact (congrArg (fun session => session.status.output) hsame).trans haccount.output_eq

theorem isTapped_after
    (setup : Setup γ ω η) (service : γ) (world : ω) (history : η) (stdout stderr : Sink)
    (env : Environment) (calls : List Call) :
    ((start service world history (.ofSinks stdout stderr) env).after setup
      calls).streams.isTapped = false := by
  rw [Streams.isTapped, (rest_after setup service world history stdout stderr env calls).1]
  rfl

/-! ## What the history answers -/

/-- What a unit leaves that runs in a session. -/
def ranOfUnit (setup : Setup γ ω η) (unit : CompiledUnit) (session : Session γ ω η) :
    Ran ω :=
  settle setup (setup.clock session.world).1
    ((setup.executor unit session.env).run (teed setup session.streams)
      (session.workspace setup))

/-- The record of a unit that runs in a session. -/
def recordOfUnit (setup : Setup γ ω η) (unit : CompiledUnit) (session : Session γ ω η) :
    Record :=
  let ran := session.ranOfUnit setup unit
  ((session.announce unit).adopt ran).recordOf unit.source ran

/-- What a history may say of the record of a run is said after all else is done. -/
theorem execute_keeping
    {setup : Setup γ ω η} {session : Session γ ω η} (journal : Journal η ShellError)
    (unit : CompiledUnit) (huntapped : session.streams.isTapped = false) :
    let ran := session.execute (setup.keeping journal) unit
    let record := session.recordOfUnit setup unit
    let appended := journal.append record session.history
    (ran.1 = match appended.1 with
      | .ok () => .ok ran.2.status.exitRequested
      | .error e => .error e) ∧
      .postcommand record ∈ ran.2.log ∧ ran.2.history = appended.2 ∧
      ran.2.streams.tap = none := by
  intro ran record appended
  have hran : ran = conclude (setup.keeping journal) unit.source (session.announce unit)
      (session.ranOfUnit setup unit) :=
    execute_eq_complete unit huntapped
  obtain ⟨_, hstreams, _, hhistory, moved, hlog⟩ := conclude_spec (setup.keeping journal)
    unit.source (session.announce unit) (session.ranOfUnit setup unit)
  refine ⟨?_, ?_, ?_, ?_⟩
  · rw [hran]
    exact conclude_answered (setup.keeping journal) unit.source (session.announce unit)
      (session.ranOfUnit setup unit)
  · rw [hran, hlog]
    apply List.mem_append_right
    exact List.mem_cons_self
  · rw [hran]
    exact hhistory
  · rw [hran, hstreams]
    exact (settle_streams _ _ _).1

/-! ## Two histories -/

def replies (setup : Setup γ ω η) : Session γ ω η → List Call → List (Except ShellError Bool)
  | _, [] => []
  | session, call :: rest =>
    (call.perform setup session).1 :: replies setup (call.perform setup session).2 rest

/-- With a history that takes every record a call is answered as it is without one. -/
theorem Call.perform_reliable
    (setup : Setup γ ω θ) (keep : Record → η → η) (session : Session γ ω η) (call : Call) :
    (call.perform (setup.keeping (.reliable keep)) session).1 =
      (call.perform setup.unrecorded session.besides).1 := by
  refine Call.perform_related (setup.keeping (.reliable keep))
    (fun whole bare => whole.1 = bare.1) (fun _ => rfl) ?_ session call
  intro unit session
  cases htapped : session.streams.isTapped with
  | false =>
    have huntapped : session.besides.streams.isTapped = false := htapped
    have hsame := conclude_besides (setup.keeping (.reliable keep)) unit.source
      (session.announce unit) (session.ranOfUnit (setup.keeping (.reliable keep)) unit)
    rw [execute_eq_complete unit htapped, execute_eq_complete unit huntapped, complete,
      complete, conclude_answered, conclude_answered]
    exact congrArg (fun session => Except.ok session.status.exitRequested) hsame
  | true =>
    unfold Session.execute
    simp [Tee.start, htapped, besides, tell]

/-- With histories that take every record, sessions that differ in their histories alone
are answered alike and keep differing in them alone. -/
theorem replies_reliable
    (setup : Setup γ ω η) (keep : Record → η → η) {first second : Session γ ω η}
    (hsame : first.besides = second.besides) (calls : List Call) :
    replies (setup.keeping (.reliable keep)) first calls =
        replies (setup.keeping (.reliable keep)) second calls ∧
      (first.after (setup.keeping (.reliable keep)) calls).besides =
        (second.after (setup.keeping (.reliable keep)) calls).besides := by
  constructor
  · induction calls generalizing first second with
    | nil => rfl
    | cons call rest ih =>
      have hreply : (call.perform (setup.keeping (.reliable keep)) first).1 =
          (call.perform (setup.keeping (.reliable keep)) second).1 := by
        rw [Call.perform_reliable, Call.perform_reliable, hsame]
      have hnext : (call.perform (setup.keeping (.reliable keep)) first).2.besides =
          (call.perform (setup.keeping (.reliable keep)) second).2.besides := by
        rw [Call.perform_besides, Call.perform_besides, hsame]
      unfold replies
      rw [hreply, ih hnext]
  · rw [after_besides, after_besides, hsame]

/-- Let a unit run in any session that calls lead to, with any history.  One and the same
record is told of and given to the history, and the answer is the history's fault if it
refuses that record, and otherwise whether the unit asked for the end.  What the session
is afterwards, the tee closed and the directory followed, does not depend on the history
in anything but the history itself.  So calls that come later, with a history that takes
every record again, are answered alike and leave the same. -/
theorem failing_history_seen_in_answer_alone
    (setup : Setup γ ω η) (service : γ) (world : ω) (history : η) (stdout stderr : Sink)
    (env : Environment) (calls : List Call) (unit : CompiledUnit) :
    let session := (start service world history (.ofSinks stdout stderr) env).after setup calls
    let ran (journal : Journal η ShellError) := session.execute (setup.keeping journal) unit
    (∃ record : Record, record.input = unit.source ∧
      ∀ journal : Journal η ShellError,
        let appended := journal.append record session.history
        ((ran journal).1 = match appended.1 with
          | .ok () => .ok (ran journal).2.status.exitRequested
          | .error e => .error e) ∧
          .postcommand record ∈ (ran journal).2.log ∧
          (ran journal).2.history = appended.2 ∧
          (ran journal).2.streams.tap = none) ∧
      ∀ first second : Journal η ShellError,
        (ran first).2.besides = (ran second).2.besides ∧
          ∀ (keep : Record → η → η) (later : List Call),
            let recovered := setup.keeping (.reliable keep)
            replies recovered (ran first).2 later = replies recovered (ran second).2 later ∧
              ((ran first).2.after recovered later).besides =
                ((ran second).2.after recovered later).besides := by
  intro session ran
  have huntapped : session.streams.isTapped = false :=
    isTapped_after setup service world history stdout stderr env calls
  have hsame : ∀ first second : Journal η ShellError,
      (ran first).2.besides = (ran second).2.besides := by
    intro first second
    exact (execute_besides (setup.keeping first) unit session).trans
      (execute_besides (setup.keeping second) unit session).symm
  constructor
  · refine ⟨session.recordOfUnit setup unit, rfl, ?_⟩
    intro journal
    exact execute_keeping journal unit huntapped
  · intro first second
    exact ⟨hsame first second, fun keep later =>
      replies_reliable setup keep (hsame first second) later⟩

end Session
end LineShell
