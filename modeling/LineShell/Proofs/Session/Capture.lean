import LineShell.CommandLine.Execute
import LineShell.Proofs.Output.Capture
import LineShell.Proofs.Session.Calls

/-!
# The record of a unit holds what the user saw

A session over text sinks reads the capture of a unit in the way in which its sinks
read single writes.  The writes of a unit are those of its routine and the session's
own report of the outcome.  If each of them is well-formed text, the output in the
record is the text of all of them in their order, and each sink took the text of its
own ones, with the decorations and nothing else.
-/

namespace LineShell

open History Output Text

namespace Routine

variable {ω α : Type}

/-- The writes that a routine makes as it runs on streams and a workspace. -/
def writes : Routine ω α → Streams → Workspace ω → List (Stream × Bytes)
  | done _, _, _ => []
  | write stream bytes k, streams, workspace =>
    (stream, bytes) :: writes (k (streams.write stream bytes).1)
      (streams.write stream bytes).2 workspace
  | look k, streams, workspace => writes (k workspace) streams workspace
  | change workspace k, streams, _ => writes k streams workspace

/-- A routine reaches the streams through its writes alone. -/
theorem run_streams_eq_writeAll
    (routine : Routine ω α) (streams : Streams) (workspace : Workspace ω) :
    (routine.run streams workspace).2.1 =
      streams.writeAll (routine.writes streams workspace) := by
  induction routine generalizing streams workspace with
  | done a => rfl
  | write stream bytes k ih => exact ih _ _ workspace
  | look k ih => exact ih workspace streams workspace
  | change changed k ih => exact ih streams changed

end Routine

namespace Session

variable {γ ω η : Type}

/-- The writes that report an outcome. -/
def reportWrites (outcome : Outcome) : List (Stream × Bytes) :=
  (report? outcome).toList.map fun text => (.stderr, Utf8.encode text)

theorem writeReport_eq_writeAll (streams : Streams) (outcome : Outcome) :
    writeReport streams outcome = streams.writeAll (reportWrites outcome) := by
  unfold writeReport reportWrites
  cases report? outcome <;> rfl

theorem isSome_decode?_of_mem_reportWrites
    {outcome : Outcome} {write : Stream × Bytes} (hwrite : write ∈ reportWrites outcome) :
    (Utf8.decode? write.2).isSome := by
  obtain ⟨text, -, rfl⟩ := List.mem_map.mp hwrite
  rw [Utf8.decode?_encode]
  rfl

/-- All writes of a unit that runs in a session: those of its routine, and the report of
what the routine results in. -/
def writesOf (setup : Setup γ ω η) (session : Session γ ω η) (unit : CompiledUnit) :
    List (Stream × Bytes) :=
  let routine := setup.executor unit session.env
  let streams := teed setup session.streams
  let workspace := session.workspace setup
  routine.writes streams workspace ++ reportWrites (routine.run streams workspace).1

/-! ## Sessions over text sinks -/

/-- No tee is open, and both sinks show text in one encoding under one policy. -/
structure ShowsText (session : Session γ ω η) (encoding : Encoding) (errors : ErrorPolicy) :
    Prop where
  untapped : session.streams.isTapped = false
  show_text : session.streams.ShowText encoding errors

variable {encoding : Encoding} {errors : ErrorPolicy} {session : Session γ ω η}

theorem ShowsText.of_streams
    {other : Session γ ω η} (hsession : session.ShowsText encoding errors)
    (hstreams : other.streams = session.streams ∨
      ∃ bytes, other.streams = (session.streams.write .stderr bytes).2) :
    other.ShowsText encoding errors := by
  rcases hstreams with hsame | ⟨bytes, hwrite⟩
  · exact ⟨hsame ▸ hsession.untapped, hsame ▸ hsession.show_text⟩
  · constructor
    · rw [hwrite, Streams.write_isTapped]
      exact hsession.untapped
    · rw [hwrite]
      exact hsession.show_text.write .stderr bytes

theorem execute_streams
    (setup : Setup γ ω η) (unit : CompiledUnit) (huntapped : session.streams.isTapped = false) :
    (session.execute setup unit).2.streams =
      ((teed setup session.streams).writeAll
        (writesOf setup session unit)).uninstall.flushed := by
  have hstreams : (session.execute setup unit).2.streams = _ :=
    (execute_spec unit huntapped).2.1
  rw [hstreams, writesOf, Streams.writeAll_append, ← Routine.run_streams_eq_writeAll,
    ← writeReport_eq_writeAll]
  rfl

theorem ShowsText.show_teed
    (hsession : session.ShowsText encoding errors) (setup : Setup γ ω η) :
    (teed setup session.streams).ShowText encoding errors := by
  intro stream
  cases stream
  · exact hsession.show_text .stdout
  · exact hsession.show_text .stderr

theorem teed_tap (setup : Setup γ ω η) (streams : Streams) :
    (teed setup streams).tap = some ⟨[], setup.tee.stdout, setup.tee.stderr⟩ :=
  rfl

theorem ShowsText.execute
    (hsession : session.ShowsText encoding errors) (setup : Setup γ ω η)
    (unit : CompiledUnit) : (session.execute setup unit).2.ShowsText encoding errors := by
  have hstreams := execute_streams setup unit hsession.untapped
  have hwritten := (hsession.show_teed setup).writeAll (writesOf setup session unit)
  constructor
  · exact execute_isTapped setup unit hsession.untapped
  · rw [hstreams]
    refine Streams.ShowText.flushed ?_
    intro stream
    cases stream
    · exact hwritten .stdout
    · exact hwritten .stderr

theorem ShowsText.perform
    (hsession : session.ShowsText encoding errors) (setup : Setup γ ω η) (call : Call) :
    (call.perform setup session).2.ShowsText encoding errors := by
  cases call with
  | run line =>
    cases hunit : session.completed? setup line with
    | some unit =>
      obtain ⟨source, intake, -, hrun⟩ := run_of_completed hunit
      have htaken : ({ session with intake := intake } : Session γ ω η).ShowsText
          encoding errors := hsession.of_streams (Or.inl rfl)
      simp only [Call.perform, hrun]
      exact htaken.execute setup unit
    | none =>
      obtain ⟨intake, streams, hstreams, hrun⟩ := run_of_not_completed hunit
      simp only [Call.perform, hrun]
      exact hsession.of_streams hstreams
  | execute unit => exact hsession.execute setup unit
  | interrupt => exact hsession.of_streams (Or.inl rfl)
  | assign vars env => exact hsession.of_streams (Or.inl rfl)
  | compileFile path text => exact hsession.of_streams (Or.inl rfl)

theorem ShowsText.after
    (hsession : session.ShowsText encoding errors) (setup : Setup γ ω η)
    (calls : List Call) : (session.after setup calls).ShowsText encoding errors := by
  induction calls generalizing session with
  | nil => exact hsession
  | cons call rest ih => exact ih (hsession.perform setup call)

theorem showsText_start
    {stdout stderr : Sink} (hstdout : stdout.ShowsText encoding errors)
    (hstderr : stderr.ShowsText encoding errors) (service : γ) (world : ω) (history : η)
    (env : Environment) :
    (start service world history (.ofSinks stdout stderr) env).ShowsText encoding errors := by
  refine ⟨rfl, ?_⟩
  intro stream
  cases stream
  · exact hstdout
  · exact hstderr

/-! ## The record -/

/-- The decoration of a stream. -/
def decorationOf (setup : Setup γ ω η) : Stream → Decoration
  | .stdout => setup.tee.stdout
  | .stderr => setup.tee.stderr

theorem mergeOutput_none (captured : String) :
    mergeOutput (some captured) none = if captured = "" then none else some captured := by
  unfold mergeOutput
  by_cases hempty : captured = ""
  · subst hempty
    rfl
  · simp [hempty, Option.filter]

/-- The record that a unit leaves, if all that it writes is well-formed text and the
unit puts no output into its status. -/
theorem ShowsText.execute_record
    {setup : Setup γ ω η} (hpolicy : setup.tee.errors ≠ .strict)
    (hsession : session.ShowsText setup.tee.encoding setup.tee.errors) (unit : CompiledUnit)
    (hwrites : ∀ write ∈ writesOf setup session unit, (Utf8.decode? write.2).isSome)
    (houtput : ((setup.executor unit session.env).run (teed setup session.streams)
      (session.workspace setup)).2.2.status.output = none) :
    let text := String.join ((writesOf setup session unit).map fun write =>
      readText setup.tee.encoding setup.tee.errors write.2)
    let next := (session.execute setup unit).2
    ∃ (record : Record) (moved : Option (Option String × String)),
      next.log = (moved.toList.map fun move => Event.changeDirectory move.1 move.2) ++
        .postcommand record :: .precommand unit.source :: session.log ∧
      next.history = recorded setup record session.history ∧
      record.output = if text = "" then none else some text := by
  intro text next
  have hcaptured := (Streams.writeAll_of_tap (hsession.show_teed setup) hpolicy
    (teed_tap setup session.streams) (writesOf setup session unit)).1
  have hread : Tee.readCapture setup.tee.encoding setup.tee.errors
      ((teed setup session.streams).writeAll (writesOf setup session unit)).captured = text := by
    have hall : ∀ bytes ∈ (writesOf setup session unit).map Prod.snd,
        (Utf8.decode? bytes).isSome := by
      intro bytes hbytes
      obtain ⟨write, hwrite, rfl⟩ := List.mem_map.mp hbytes
      exact hwrites write hwrite
    rw [hcaptured]
    exact (readCapture_flatten hpolicy setup.tee.encoding hall).trans
      (by rw [List.map_map]; rfl)
  rw [writesOf, Streams.writeAll_append, ← Routine.run_streams_eq_writeAll,
    ← writeReport_eq_writeAll] at hread
  obtain ⟨-, -, -, hhistory, moved, hlog⟩ := execute_spec unit hsession.untapped
  generalize (setup.executor unit session.env).run (teed setup session.streams)
    (session.workspace setup) = left at houtput hread hhistory hlog
  refine ⟨_, moved, hlog, hhistory, ?_⟩
  have hmerged : mergeOutput (some (Tee.readCapture setup.tee.encoding setup.tee.errors
      (writeReport left.2.1 left.1).captured)) left.2.2.status.output =
        if text = "" then none else some text := by
    rw [hread, houtput, mergeOutput_none]
  exact hmerged

/-- What a unit adds to a sink: its own writes, each with the decoration of the stream. -/
theorem ShowsText.execute_written
    {setup : Setup γ ω η} (hpolicy : setup.tee.errors ≠ .strict)
    (hsession : session.ShowsText setup.tee.encoding setup.tee.errors) (unit : CompiledUnit)
    (stream : Stream) :
    ((session.execute setup unit).2.streams.sink stream).written =
      (session.streams.sink stream).written ++
        (writesOf setup session unit).flatMap fun write =>
          if write.1 = stream then
            dressed setup.tee.encoding setup.tee.errors (decorationOf setup stream) write.2
          else [] := by
  have hwritten := (Streams.writeAll_of_tap (hsession.show_teed setup) hpolicy
    (teed_tap setup session.streams) (writesOf setup session unit)).2 stream
  rw [execute_streams setup unit hsession.untapped, Streams.flushed_written]
  cases stream
  · exact hwritten
  · exact hwritten

/-- Over text sinks that take everything, and under the policy and the encoding of the
sinks, a unit leaves one record for the history, whose output is the text of all its
writes, the session's report included, in the order in which they were made.  Each sink
gains the text of its own writes that are not empty, every one with its decoration. -/
theorem record_holds_what_was_shown
    {setup : Setup γ ω η} {stdout stderr : Sink}
    (hpolicy : setup.tee.errors ≠ .strict)
    (hstdout : stdout.ShowsText setup.tee.encoding setup.tee.errors)
    (hstderr : stderr.ShowsText setup.tee.encoding setup.tee.errors)
    (service : γ) (world : ω) (history : η) (env : Environment) (calls : List Call)
    (unit : CompiledUnit) :
    let session := (start service world history (.ofSinks stdout stderr) env).after setup calls
    let routine := setup.executor unit session.env
    let streams := teed setup session.streams
    let workspace := session.workspace setup
    let writes := writesOf setup session unit
    let next := (session.execute setup unit).2
    (∀ write ∈ routine.writes streams workspace, (Utf8.decode? write.2).isSome) →
    (routine.run streams workspace).2.2.status.output = none →
    ∃ (texts : List String) (record : Record) (moved : Option (Option String × String)),
      (writes.map fun write => decode setup.tee.encoding setup.tee.errors write.2) =
        texts.map .ok ∧
      next.log = (moved.toList.map fun move => Event.changeDirectory move.1 move.2) ++
        .postcommand record :: .precommand unit.source :: session.log ∧
      next.history = recorded setup record session.history ∧
      record.output =
        (if String.join texts = "" then none else some (String.join texts)) ∧
      ∀ stream, (next.streams.sink stream).written =
        (session.streams.sink stream).written ++
          (writes.zip texts).flatMap fun shown =>
            if shown.1.1 = stream ∧ shown.1.2 ≠ [] then
              Utf8.encode ((decorationOf setup stream).before ++ shown.2 ++
                (decorationOf setup stream).after)
            else [] := by
  intro session routine streams workspace writes next hwrites houtput
  have hsession : session.ShowsText setup.tee.encoding setup.tee.errors :=
    (showsText_start hstdout hstderr service world history env).after setup calls
  have hall : ∀ write ∈ writes, (Utf8.decode? write.2).isSome := by
    intro write hwrite
    rcases List.mem_append.mp hwrite with hown | hreport
    · exact hwrites write hown
    · exact isSome_decode?_of_mem_reportWrites hreport
  obtain ⟨record, moved, hlog, hhistory, hrecord⟩ :=
    hsession.execute_record hpolicy unit hall houtput
  refine ⟨writes.map fun write => readText setup.tee.encoding setup.tee.errors write.2,
    record, moved, ?_, hlog, hhistory, hrecord, ?_⟩
  · rw [List.map_map]
    exact List.map_congr_left fun write _ =>
      decode_of_ne_strict hpolicy setup.tee.encoding write.2
  · intro stream
    have hzip : writes.zip (writes.map fun write =>
        readText setup.tee.encoding setup.tee.errors write.2) =
          writes.map fun write =>
            (write, readText setup.tee.encoding setup.tee.errors write.2) := by
      have hpairs := List.zip_map' (f := fun write : Stream × Bytes => write)
        (g := fun write => readText setup.tee.encoding setup.tee.errors write.2) (l := writes)
      rwa [List.map_id'] at hpairs
    have hwritten : (next.streams.sink stream).written = _ :=
      hsession.execute_written hpolicy unit stream
    rw [hwritten, hzip, List.flatMap_map]
    congr 2
    funext write
    unfold dressed
    by_cases hown : write.1 = stream
    · by_cases hnil : write.2 = [] <;> simp [hown, hnil]
    · simp [hown]

/-- A unit that writes a letter which its sinks cannot read, then nothing, and then
panics. -/
theorem record_holds_what_a_panic_showed :
    let settings : Settings := ⟨.ascii, .backslashReplace, ⟨"<", ">"⟩, ⟨"", "!"⟩, .all⟩
    let routine : Routine FileSystem Outcome :=
      .write .stdout [0xC3, 0xA9] fun _ => .write .stdout [] fun _ => .done (.panic "oh")
    let setup : Setup Unit FileSystem Database :=
      { CommandLine.setup Host.ofFiles settings "/cache" none with
        executor := fun _ _ => routine }
    let session := CommandLine.newSession settings .empty ⟨.empty, [], 0⟩ ⟨none, none⟩
    let next := (session.execute setup ⟨"", .exec, "", []⟩).2
    ∃ record : Record, .postcommand record ∈ next.log ∧
      record.output = some "\\xc3\\xa9panic: oh\n" ∧
      (next.streams.sink .stdout).written = Utf8.encode "<\\xc3\\xa9>" ∧
      (next.streams.sink .stderr).written = Utf8.encode "panic: oh\n!" := by
  intro settings routine setup session next
  have hsink : (Sink.unlimited settings.sinkKind).ShowsText .ascii .backslashReplace :=
    ⟨rfl, fun _ _ => rfl⟩
  obtain ⟨texts, record, moved, hdecode, hlog, -, houtput, hsinks⟩ :=
    record_holds_what_was_shown (show setup.tee.errors ≠ .strict by decide) hsink hsink ()
      ⟨.empty, [], 0⟩ ⟨none, none⟩ .empty [] ⟨"", .exec, "", []⟩
      (by
        intro write hwrite
        rcases List.mem_cons.mp hwrite with rfl | hwrite
        · decide +kernel
        · rcases List.mem_cons.mp hwrite with rfl | hwrite
          · decide +kernel
          · cases hwrite)
      rfl
  have hread : ((writesOf setup session ⟨"", .exec, "", []⟩).map fun write =>
      decode .ascii .backslashReplace write.2) =
        ["\\xc3\\xa9", "", "panic: oh\n"].map .ok := by
    decide +kernel
  obtain rfl : ["\\xc3\\xa9", "", "panic: oh\n"] = texts :=
    List.map_injective_iff.mpr (fun _ _ => Except.ok.inj) (hread.symm.trans hdecode)
  refine ⟨record, ?_, houtput.trans (by decide +kernel), ?_, ?_⟩
  · have hnext : next.log = _ := hlog
    rw [hnext]
    simp
  · refine (hsinks .stdout).trans ?_
    decide +kernel
  · refine (hsinks .stderr).trans ?_
    decide +kernel

end Session
end LineShell
