import LineShell.Proofs.Session.Calls

/-!
# Every unit that runs is accounted for once

The streams count tees, those who watch are told of events, and the history takes
records.  An account of a session is a list of episodes, one for each unit that
the executor was given, from which all three can be read off.  Every call keeps
the account: a call that runs a unit adds one episode, whatever the executor and
the history do, and every other call adds none.
-/

namespace LineShell

open History Output Text

namespace History

/-- The journal that also lists the records it was given, the last one last. -/
def Journal.listing {η ε : Type} (journal : Journal η ε) : Journal (η × List Record) ε where
  append record state :=
    let (result, history) := journal.append record state.1
    (result, (history, state.2 ++ [record]))

end History

namespace Session

variable {γ ω η : Type}

/-- The setup with a history that lists the records it was given. -/
def Setup.listing (setup : Setup γ ω η) (journal : Journal η ShellError) :
    Setup γ ω (η × List Record) :=
  ⟨setup.tools, setup.executor, setup.directory, setup.clock, some journal.listing,
    setup.tee⟩

def unitsOf (setup : Setup γ ω η) (session : Session γ ω η) :
    List Call → List CompiledUnit
  | [] => []
  | call :: rest =>
    (call.unit? setup session).toList ++
      unitsOf setup (call.perform setup session).2 rest

/-! ## Episodes -/

/-- What is told of one unit: the unit, its record and the change of directory that
was noticed after it, from the old to the new one. -/
structure Episode where
  unit : CompiledUnit
  record : Record
  moved : Option (Option String × String)

namespace Episode

def events (episode : Episode) : List Event :=
  .precommand episode.unit.source :: .postcommand episode.record ::
    episode.moved.toList.map fun move => .changeDirectory move.1 move.2

end Episode

def announced? : Event → Option String
  | .precommand source => some source
  | _ => none

def told? : Event → Option Record
  | .postcommand record => some record
  | _ => none

theorem Episode.filterMap_announced? (episode : Episode) :
    episode.events.filterMap announced? = [episode.unit.source] := by
  obtain ⟨unit, record, moved⟩ := episode
  cases moved <;> rfl

theorem Episode.filterMap_told? (episode : Episode) :
    episode.events.filterMap told? = [episode.record] := by
  obtain ⟨unit, record, moved⟩ := episode
  cases moved <;> rfl

theorem filterMap_announced?_events (episodes : List Episode) :
    (episodes.flatMap Episode.events).filterMap announced? =
      episodes.map fun episode => episode.unit.source := by
  rw [List.filterMap_flatMap, List.map_eq_flatMap]
  simp only [Episode.filterMap_announced?]

theorem filterMap_told?_events (episodes : List Episode) :
    (episodes.flatMap Episode.events).filterMap told? =
      episodes.map Episode.record := by
  rw [List.filterMap_flatMap, List.map_eq_flatMap]
  simp only [Episode.filterMap_told?]

/-! ## The account -/

/-- The tees, the events and the records of a session are those of its episodes, no
tee is open, and nothing of a unit is left in the status. -/
structure Account (session : Session γ ω (η × List Record))
    (episodes : List Episode) : Prop where
  untapped : session.streams.tap = none
  opened_eq : session.streams.opened = episodes.length
  closed_eq : session.streams.closed = episodes.length
  events_eq : session.events = episodes.flatMap Episode.events
  history_eq : session.history.2 = episodes.map Episode.record
  input_eq : ∀ episode ∈ episodes, episode.record.input = episode.unit.source
  returnCode_eq : session.status.returnCode = none
  output_eq : session.status.output = none

theorem account_start
    (service : γ) (world : ω) (history : η) (stdout stderr : Sink) (env : Environment) :
    (start service world (history, []) (.ofSinks stdout stderr) env).Account [] := by
  constructor
  case input_eq =>
    intro episode hmem
    simp at hmem
  all_goals rfl

theorem Account.isTapped
    {session : Session γ ω (η × List Record)} {episodes : List Episode}
    (hgood : session.Account episodes) : session.streams.isTapped = false := by
  simp [Streams.isTapped, hgood.untapped]

theorem recorded_listing
    {setup : Setup γ ω (η × List Record)} {journal : Journal η ShellError}
    (hjournal : setup.journal = some journal.listing)
    (record : Record) (history : η × List Record) :
    (recorded setup record history).2 = history.2 ++ [record] := by
  unfold recorded
  rw [hjournal]
  rfl

theorem answered_listing
    {setup : Setup γ ω (η × List Record)} {journal : Journal η ShellError}
    (hjournal : setup.journal = some journal.listing)
    (record : Record) (history : η × List Record) :
    answered setup record history = (journal.append record history.1).1 := by
  unfold answered
  rw [hjournal]
  rfl

theorem Account.execute
    {setup : Setup γ ω (η × List Record)} {journal : Journal η ShellError}
    (hjournal : setup.journal = some journal.listing)
    {session : Session γ ω (η × List Record)} {episodes : List Episode}
    (hgood : session.Account episodes) (unit : CompiledUnit) :
    ∃ episode, episode.unit = unit ∧
      (session.execute setup unit).2.Account (episodes ++ [episode]) := by
  obtain ⟨-, hstreams, hstatus, hhistory, moved, hlog⟩ := execute_spec unit hgood.isTapped
  obtain ⟨hopened, hclosed, _⟩ := Routine.run_streams (setup.executor unit session.env)
    (teed setup session.streams) (session.workspace setup)
  generalize (setup.executor unit session.env).run (teed setup session.streams)
    (session.workspace setup) = left at hstreams hstatus hhistory hlog hopened hclosed
  obtain ⟨htap, hsettledOpened, hsettledClosed⟩ :=
    settle_streams setup (setup.clock session.world).1 left
  generalize hrecord : ((session.announce unit).adopt
    (settle setup (setup.clock session.world).1 left)).recordOf unit.source
      (settle setup (setup.clock session.world).1 left) = record at hhistory hlog
  refine ⟨⟨unit, record, moved⟩, rfl, ?_⟩
  constructor
  · rw [hstreams]
    exact htap
  · rw [hstreams, hsettledOpened, hopened, List.length_append]
    exact congrArg (· + 1) hgood.opened_eq
  · rw [hstreams, hsettledClosed, hclosed, List.length_append]
    exact congrArg (· + 1) hgood.closed_eq
  · have hbefore : session.log.reverse = episodes.flatMap Episode.events :=
      hgood.events_eq
    have hmoved : (moved.toList.map fun move =>
        Event.changeDirectory move.1 move.2).reverse =
          moved.toList.map fun move => Event.changeDirectory move.1 move.2 := by
      cases moved <;> rfl
    unfold events
    rw [hlog]
    simp [hbefore, hmoved, Episode.events]
  · rw [hhistory, recorded_listing hjournal, List.map_append]
    exact congrArg (· ++ [record]) hgood.history_eq
  · intro episode hmem
    rcases List.mem_append.mp hmem with hold | hnew
    · exact hgood.input_eq episode hold
    · rw [List.mem_singleton.mp hnew, ← hrecord]
      rfl
  · rw [hstatus]
    rfl
  · rw [hstatus]
    rfl

/-- An account does not depend on the intake, and a write outside a tee keeps it. -/
theorem Account.withIntake
    {session : Session γ ω (η × List Record)} {episodes : List Episode}
    (hgood : session.Account episodes) (intake : Intake γ ω) {streams : Streams}
    (hstreams : streams = session.streams ∨
      ∃ bytes, streams = (session.streams.write .stderr bytes).2) :
    ({ session with intake := intake, streams := streams } :
      Session γ ω (η × List Record)).Account episodes := by
  have hsame : streams.tap = none ∧ streams.opened = session.streams.opened ∧
      streams.closed = session.streams.closed := by
    rcases hstreams with rfl | ⟨bytes, rfl⟩
    · exact ⟨hgood.untapped, rfl, rfl⟩
    · refine ⟨?_, by simp, by simp⟩
      have htapped : (session.streams.write .stderr bytes).2.isTapped = false := by
        rw [Streams.write_isTapped]
        exact hgood.isTapped
      simpa [Streams.isTapped] using htapped
  obtain ⟨htap, hopened, hclosed⟩ := hsame
  constructor
  · exact htap
  · exact hopened.trans hgood.opened_eq
  · exact hclosed.trans hgood.closed_eq
  · exact hgood.events_eq
  · exact hgood.history_eq
  · exact hgood.input_eq
  · exact hgood.returnCode_eq
  · exact hgood.output_eq

theorem Account.assign
    {session : Session γ ω (η × List Record)} {episodes : List Episode}
    (hgood : session.Account episodes) (vars : Context) (env : Environment) :
    ({ session with vars := vars, env := env } :
      Session γ ω (η × List Record)).Account episodes := by
  constructor
  · exact hgood.untapped
  · exact hgood.opened_eq
  · exact hgood.closed_eq
  · exact hgood.events_eq
  · exact hgood.history_eq
  · exact hgood.input_eq
  · exact hgood.returnCode_eq
  · exact hgood.output_eq

/-- A call adds one episode for the unit that it gives to the executor, and none if
it gives none. -/
theorem Account.perform
    {setup : Setup γ ω (η × List Record)} {journal : Journal η ShellError}
    (hjournal : setup.journal = some journal.listing)
    {session : Session γ ω (η × List Record)} {episodes : List Episode}
    (hgood : session.Account episodes) (call : Call) :
    ∃ more : List Episode,
      more.map Episode.unit = (call.unit? setup session).toList ∧
        (call.perform setup session).2.Account (episodes ++ more) := by
  cases call with
  | run line =>
    cases hunit : session.completed? setup line with
    | some unit =>
      obtain ⟨source, intake, _, hrun⟩ := run_of_completed hunit
      obtain ⟨episode, hepisode, haccount⟩ :=
        (hgood.withIntake intake (Or.inl rfl)).execute hjournal unit
      refine ⟨[episode], ?_, ?_⟩
      · simp [Call.unit?, hunit, hepisode]
      · simp only [Call.perform, hrun]
        exact haccount
    | none =>
      obtain ⟨intake, streams, hstreams, hrun⟩ := run_of_not_completed hunit
      refine ⟨[], ?_, ?_⟩
      · simp [Call.unit?, hunit]
      · simp only [Call.perform, hrun, List.append_nil]
        exact hgood.withIntake intake hstreams
  | execute unit =>
    obtain ⟨episode, hepisode, haccount⟩ := hgood.execute hjournal unit
    exact ⟨[episode], by simp [Call.unit?, hepisode], haccount⟩
  | interrupt =>
    refine ⟨[], rfl, ?_⟩
    rw [List.append_nil]
    exact hgood.withIntake session.intake.reset (Or.inl rfl)
  | assign vars env =>
    refine ⟨[], rfl, ?_⟩
    rw [List.append_nil]
    exact hgood.assign vars env
  | compileFile path text =>
    refine ⟨[], rfl, ?_⟩
    rw [List.append_nil]
    exact hgood.withIntake _ (Or.inl rfl)

/-- The account of a whole run has an episode for each unit given to the executor. -/
theorem Account.after
    {setup : Setup γ ω (η × List Record)} {journal : Journal η ShellError}
    (hjournal : setup.journal = some journal.listing)
    {session : Session γ ω (η × List Record)} {episodes : List Episode}
    (hgood : session.Account episodes) (calls : List Call) :
    ∃ more : List Episode,
      more.map Episode.unit = unitsOf setup session calls ∧
        (session.after setup calls).Account (episodes ++ more) := by
  induction calls generalizing session episodes with
  | nil =>
    refine ⟨[], rfl, ?_⟩
    rw [List.append_nil]
    exact hgood
  | cons call rest ih =>
    obtain ⟨now, hnow, hnext⟩ := hgood.perform hjournal call
    obtain ⟨later, hlater, hlast⟩ := ih hnext
    refine ⟨now ++ later, ?_, ?_⟩
    · rw [List.map_append, hnow, hlater]
      rfl
    · rw [← List.append_assoc]
      exact hlast

theorem Account.execute_error
    {setup : Setup γ ω (η × List Record)} {journal : Journal η ShellError}
    (hjournal : setup.journal = some journal.listing)
    {session : Session γ ω (η × List Record)} {episodes : List Episode}
    (hgood : session.Account episodes) {unit : CompiledUnit} {e : ShellError}
    (herror : (session.execute setup unit).1 = .error e) :
    ∃ record : Record,
      (session.execute setup unit).2.history.2 = session.history.2 ++ [record] ∧
        (journal.append record session.history.1).1 = .error e := by
  obtain ⟨ran, hran⟩ : ∃ ran, session.execute setup unit =
      conclude setup unit.source (session.announce unit) ran :=
    ⟨_, execute_eq_complete unit hgood.isTapped⟩
  have hhistory := (conclude_spec setup unit.source (session.announce unit) ran).2.2.2.1
  have hsame : (session.announce unit).history = session.history := rfl
  rw [hran] at herror ⊢
  rw [conclude_answered, hsame] at herror
  rw [hsame] at hhistory
  generalize ((session.announce unit).adopt ran).recordOf unit.source ran = record
    at herror hhistory
  refine ⟨record, ?_, ?_⟩
  · rw [hhistory]
    exact recorded_listing hjournal record session.history
  · rw [answered_listing hjournal] at herror
    cases hanswer : (journal.append record session.history.1).1 with
    | ok _ =>
      rw [hanswer] at herror
      cases herror
    | error refusal =>
      rw [hanswer] at herror
      cases herror
      rfl

/-- A call on an accounted session fails only if it made a record that the history then
refused, and it fails with the error of the history. -/
theorem Account.perform_error
    {setup : Setup γ ω (η × List Record)} {journal : Journal η ShellError}
    (hjournal : setup.journal = some journal.listing)
    {session : Session γ ω (η × List Record)} {episodes : List Episode}
    (hgood : session.Account episodes) {call : Call} {e : ShellError}
    (herror : (call.perform setup session).1 = .error e) :
    ∃ record : Record,
      (call.perform setup session).2.history.2 = session.history.2 ++ [record] ∧
        (journal.append record session.history.1).1 = .error e := by
  cases call with
  | run line =>
    cases hunit : session.completed? setup line with
    | some unit =>
      obtain ⟨source, intake, _, hrun⟩ := run_of_completed hunit
      simp only [Call.perform, hrun] at herror ⊢
      exact (hgood.withIntake intake (Or.inl rfl)).execute_error hjournal herror
    | none =>
      obtain ⟨intake, streams, _, hrun⟩ := run_of_not_completed hunit
      simp [Call.perform, hrun] at herror
  | execute unit => exact hgood.execute_error hjournal herror
  | interrupt => cases herror
  | assign vars env => cases herror
  | compileFile path text => cases herror

/-- A call that gives no unit to the executor touches neither the counts of tees nor
the events nor the history. -/
theorem Call.perform_of_no_unit
    {setup : Setup γ ω η} {session : Session γ ω η} {call : Call}
    (hnone : call.unit? setup session = none) :
    (call.perform setup session).2.streams.opened = session.streams.opened ∧
      (call.perform setup session).2.streams.closed = session.streams.closed ∧
      (call.perform setup session).2.log = session.log ∧
      (call.perform setup session).2.history = session.history := by
  cases call with
  | run line =>
    obtain ⟨intake, streams, hstreams, hrun⟩ := run_of_not_completed hnone
    have hperform : Call.perform setup session (.run line) =
        (.ok false, { session with intake := intake, streams := streams }) := hrun
    rw [hperform]
    rcases hstreams with rfl | ⟨bytes, rfl⟩
    · exact ⟨rfl, rfl, rfl, rfl⟩
    · exact ⟨by simp, by simp, rfl, rfl⟩
  | execute unit => cases hnone
  | interrupt => exact ⟨rfl, rfl, rfl, rfl⟩
  | assign vars env => exact ⟨rfl, rfl, rfl, rfl⟩
  | compileFile path text => exact ⟨rfl, rfl, rfl, rfl⟩

/-- Whatever compiler, executor and history a new session works with, and whatever is
called on it: no tap is left on its streams; as many tees were opened and closed as
units were given to the executor; the sources announced, and the inputs of the
records, are those of the units in their order; the records told of are those that
the history was given; the events of a unit stand together, its announcement first,
then its record, then at most one change of directory; and the status holds nothing
of a unit.  A call fails only if the history refuses its record, whatever error it
refuses it with, so that none is refused a tee; and one that completes no unit adds
nothing. -/
theorem units_accounted_for_once
    (setup : Setup γ ω η) (journal : Journal η ShellError) (service : γ) (world : ω)
    (history : η) (stdout stderr : Sink) (env : Environment) (calls : List Call) :
    let listing := setup.listing journal
    let first := start service world (history, []) (.ofSinks stdout stderr) env
    let units := unitsOf listing first calls
    let session := first.after listing calls
    session.streams.tap = none ∧
      session.streams.opened = units.length ∧
      session.streams.closed = units.length ∧
      session.events.filterMap announced? = units.map CompiledUnit.source ∧
      session.events.filterMap told? = session.history.2 ∧
      session.history.2.map Record.input = units.map CompiledUnit.source ∧
      (∃ episodes : List Episode,
        episodes.map Episode.unit = units ∧
          session.events = episodes.flatMap Episode.events) ∧
      session.status.returnCode = none ∧
      session.status.output = none ∧
      ∀ call : Call,
        let next := call.perform listing session
        (∀ e, next.1 = .error e → ∃ record : Record,
          next.2.history.2 = session.history.2 ++ [record] ∧
            (journal.append record session.history.1).1 = .error e) ∧
        (call.unit? listing session = none →
          next.2.streams.opened = session.streams.opened ∧
            next.2.streams.closed = session.streams.closed ∧
            next.2.events = session.events ∧
            next.2.history = session.history) := by
  intro listing first units session
  have hjournal : listing.journal = some journal.listing := rfl
  obtain ⟨episodes, hepisodes, haccount⟩ :=
    (account_start service world history stdout stderr env).after hjournal calls
  have hunits : episodes.map Episode.unit = units := hepisodes
  have hgood : session.Account episodes := haccount
  have hlength : episodes.length = units.length := by
    rw [← hunits, List.length_map]
  have hsources : (episodes.map fun episode => episode.unit.source) =
      units.map CompiledUnit.source := by
    rw [← hunits, List.map_map]
    rfl
  refine ⟨hgood.untapped, hgood.opened_eq.trans hlength, hgood.closed_eq.trans hlength,
    ?_, ?_, ?_, ⟨episodes, hunits, hgood.events_eq⟩, hgood.returnCode_eq,
    hgood.output_eq, ?_⟩
  · rw [hgood.events_eq, filterMap_announced?_events, hsources]
  · rw [hgood.events_eq, filterMap_told?_events, hgood.history_eq]
  · rw [hgood.history_eq, List.map_map, ← hsources]
    exact List.map_congr_left hgood.input_eq
  · intro call next
    refine ⟨fun e herror => hgood.perform_error hjournal herror, ?_⟩
    intro hnone
    obtain ⟨hopened, hclosed, hlog, hhistory⟩ := Call.perform_of_no_unit hnone
    exact ⟨hopened, hclosed, congrArg List.reverse hlog, hhistory⟩

end Session
end LineShell
