import LineShell.Proofs.CommandLine.Setup
import LineShell.Proofs.Language.Code
import LineShell.Proofs.Language.Execute
import LineShell.Proofs.Session.Waiting

/-!
# What was typed is what runs

A session of the line language takes in lines, compiles them through a cache, and
runs what the compiler or the cache gives it.  On the way the text is kept as lines,
filed under a digest, written as an artifact, and its program is written as code and
read back.  None of this is seen in the end: the unit that a line completes has the
typed text as its source, and what it does is what the statements of that text do.
-/

namespace LineShell
namespace Session

open Cache History LineShell.Language Output Text

variable {ω η : Type}

/-! ## Sessions of the line language -/

/-- The compiler and the executor are those of the line language, sources are not
changed, and the entries of the cache are sound, which neither the working directory
nor the clock disturbs. -/
structure Setup.RunsLines (setup : Setup Unit ω η) (good : ω → Prop) : Prop where
  compiler_eq : setup.tools.compiler = CommandLine.compiler
  transform_eq : setup.tools.transform = id
  executor_eq : setup.executor = Language.executor setup.directory
  trusted : Intake.Trusted setup.tools Language.compile good
  change_good : ∀ path world, good world → good (setup.directory.change path world).2
  clock_good : ∀ world, good world → good (setup.clock world).2

theorem Setup.RunsLines.answersBy
    {setup : Setup Unit ω η} {good : ω → Prop} (hsetup : setup.RunsLines good) :
    Intake.AnswersBy setup.tools.compiler Language.compile := by
  rw [hsetup.compiler_eq]
  exact Intake.compiler_answersBy

/-- On a host that keeps its files, the shell's own setup is one of the line language,
whatever its settings and the directory of its cache. -/
theorem runsLines_setup
    {host : Host ω} (hhost : host.KeepsFiles) (settings : Settings) (cacheDir : String)
    (journal : Option (Journal Database ShellError)) :
    (CommandLine.setup host settings cacheDir journal).RunsLines
      (CommandLine.SoundHost host) := by
  constructor
  · rfl
  · rfl
  · rfl
  · exact CommandLine.setup_trusted hhost settings cacheDir journal
  · intro path world hsound
    exact hsound.change hhost path
  · intro world hsound
    exact hsound

/-- The lines that wait are those that were typed since none waited, no tee is open,
and every entry of the cache is sound. -/
structure Faithful (good : ω → Prop) (session : Session Unit ω η) (lines : List String) :
    Prop where
  lines_eq : session.intake.lines = typedLines lines
  untapped : session.streams.isTapped = false
  good : good session.world

variable {setup : Setup Unit ω η} {good : ω → Prop} {session : Session Unit ω η}
  {lines : List String}

theorem faithful_start
    {world : ω} (hgood : good world) (history : η) (stdout stderr : Sink)
    (env : Environment) :
    Faithful good (start () world history (.ofSinks stdout stderr) env) [] := by
  constructor
  · rfl
  · rfl
  · exact hgood

theorem Faithful.retains (hgood : Faithful good session lines) : Retains session lines :=
  ⟨hgood.lines_eq, hgood.untapped⟩

theorem Faithful.of_retains (hlines : Retains session lines) (hgood : good session.world) :
    Faithful good session lines :=
  ⟨hlines.lines_eq, hlines.untapped, hgood⟩

theorem Faithful.feed?_took
    (hsetup : setup.RunsLines good) (hgood : Faithful good session lines) {line : String}
    {fed : Pushed × Intake Unit ω} (hfed : session.feed? setup line = some fed) :
    Intake.Took setup.tools Language.compile good session.world
      (typedLines (lines ++ [line])) fed := by
  rcases hgood.retains.feed?_eq_some hfed with ⟨text, hlines, rfl⟩ | ⟨hlines, rfl⟩
  · rw [hlines]
    exact Intake.push_took hsetup.answersBy hsetup.trusted hgood.good text session.vars
  · rw [hlines]
    exact Intake.emptyLine_took hsetup.answersBy hsetup.trusted hgood.good session.vars

/-! ## What calls keep -/

/-- A unit that runs on a sound cache leaves one. -/
theorem execute_good
    (hsetup : setup.RunsLines good) (huntapped : session.streams.isTapped = false)
    (hgood : good session.world) (unit : CompiledUnit) :
    good (session.execute setup unit).2.world := by
  have hstart : good (session.workspace setup).world := hsetup.clock_good session.world hgood
  have hleft : good ((setup.executor unit session.env).run (teed setup session.streams)
      (session.workspace setup)).2.2.world := by
    rw [hsetup.executor_eq]
    exact (executor_preserves hsetup.change_good unit session.env).run _ hstart
  have hintake : (session.execute setup unit).2.intake = _ := (execute_spec unit huntapped).1
  rw [world, hintake]
  exact hsetup.clock_good _ hleft

theorem Faithful.run_good
    (hsetup : setup.RunsLines good) (hgood : Faithful good session lines) (line : String) :
    good (session.run setup line).2.world := by
  rcases run_cases setup session line with
    ⟨_, hrun⟩ | ⟨source, intake, ⟨hfed, hrun⟩ | ⟨e, hfed, hrun⟩ | ⟨unit, hfed, hrun⟩⟩
  · rw [hrun]
    exact hgood.good
  · rw [hrun]
    exact (hgood.feed?_took hsetup hfed).good
  · rw [hrun]
    exact (hgood.feed?_took hsetup hfed).good
  · have huntapped : { session with intake := intake }.streams.isTapped = false :=
      hgood.untapped
    rw [hrun]
    exact execute_good hsetup huntapped (hgood.feed?_took hsetup hfed).good unit

/-- Every call keeps a session faithful to what was typed since its intake was idle. -/
theorem Faithful.perform
    (hsetup : setup.RunsLines good) (hgood : Faithful good session lines) (call : Call) :
    let next := (call.perform setup session).2
    Faithful good next
      (if next.intake.isAccumulating then lines ++ call.lines else []) := by
  intro next
  refine .of_retains (hgood.retains.perform call) ?_
  cases call with
  | run line => exact hgood.run_good hsetup line
  | execute unit => exact execute_good hsetup hgood.untapped hgood.good unit
  | interrupt => exact hgood.good
  | assign vars env => exact hgood.good
  | compileFile path text =>
    exact Intake.compileFile_good hsetup.answersBy hsetup.trusted hgood.good path text
      session.vars

theorem Faithful.after
    (hsetup : setup.RunsLines good) (hgood : Faithful good session lines)
    (calls : List Call) :
    Faithful good (session.after setup calls) (linesSinceIdle setup session lines calls) := by
  induction calls generalizing session lines with
  | nil => exact hgood
  | cons call rest ih => exact ih (hgood.perform hsetup call)

/-! ## The unit that a line completes -/

theorem compile_eq_ok
    {source filename : String} {mode : Mode} {unit : CompiledUnit}
    (hunit : Language.compile source mode filename = .ok unit) :
    ∃ program, parse mode source = .ok program ∧
      unit = ⟨source, mode, filename, Program.encode program⟩ := by
  unfold Language.compile at hunit
  split at hunit
  · rename_i program hparse
    exact ⟨program, hparse, (Except.ok.inj hunit).symm⟩
  · cases hunit

/-- A line that completes a unit leaves an idle intake and runs what the typed text is
compiled to. -/
theorem Faithful.run_of_completed
    (hsetup : setup.RunsLines good) (hgood : Faithful good session lines) {line : String}
    {unit : CompiledUnit} (hunit : session.completed? setup line = some unit) :
    let text := typedText (lines ++ [line])
    ∃ (program : Program) (kept : ω),
      parse .single text = .ok program ∧
        unit = ⟨text, .single, stdinName, Program.encode program⟩ ∧
        (kept = session.world ∨
          kept = (setup.tools.cache.insert text unit (.interactive Language.fingerprint)
            session.world).2) ∧
        session.run setup line =
          { session with intake := .idle () kept }.execute setup unit := by
  intro text
  obtain ⟨source, intake, hfed, hrun⟩ := Session.run_of_completed hunit
  have htook := hgood.feed?_took hsetup hfed
  obtain ⟨hanswer, hneed, hworld⟩ := htook.ready unit rfl
  have hlines : intake.lines = [] := by simpa using htook.lines_eq
  have hidle : intake = .idle () intake.world := by
    obtain ⟨lines, needMore, service, world⟩ := intake
    simp only at hlines hneed
    rw [hlines, hneed]
    rfl
  have hcompiler : setup.tools.compiler.fingerprint = Language.fingerprint := by
    rw [hsetup.compiler_eq]
    rfl
  rw [hsetup.transform_eq] at hanswer hworld
  rw [hcompiler] at hworld
  obtain ⟨program, hparse, hmade⟩ := compile_eq_ok hanswer
  refine ⟨program, intake.world, hparse, hmade, hworld, ?_⟩
  rw [← hidle]
  exact hrun

/-- The code of a program that is not too large runs as its statements. -/
theorem execute_of_code
    (hsetup : setup.RunsLines good) (huntapped : session.streams.isTapped = false)
    {unit : CompiledUnit} {program : Program} (hcode : unit.code = Program.encode program)
    (hsize : program.size ≤ Binary.limit) :
    let ended := (Execute.block setup.directory session.env program).run
      (teed setup session.streams) (session.workspace setup)
    session.execute setup unit =
      session.complete setup unit (ended.1.getD .ok, ended.2) := by
  have hdecode : Program.decode unit.code = .ok program := by
    have hback := (Program.decode_eq_ok_iff program program []).mpr ⟨hsize, rfl⟩
    rw [List.append_nil] at hback
    rw [hcode]
    exact hback
  rw [execute_eq_complete unit huntapped, hsetup.executor_eq, executor_run hdecode]

/-- In every reachable state of a session of the line language, over a cache that holds
only what its compiler made, the unit that a line completes has the typed text as its
source, and that is the input of its record.  Unless the program is too large for its
code to be read back, the line does what the statements of that text do, on the
variables, the streams, the status and the world that the session has with an idle
intake, and what the session itself adds around them. -/
theorem run_executes_typed_text
    (hsetup : setup.RunsLines good) {initial : ω} (hinitial : good initial) (history : η)
    (stdout stderr : Sink) (env : Environment) (calls : List Call) (line : String)
    (unit : CompiledUnit) :
    let first := start () initial history (.ofSinks stdout stderr) env
    let session := first.after setup calls
    let text := typedText (linesSinceIdle setup first [] calls ++ [line])
    let next := session.run setup line
    session.completed? setup line = some unit →
      unit.source = text ∧
      (∃ record : Record, record.input = text ∧ .postcommand record ∈ next.2.log ∧
        next.2.history = recorded setup record session.history) ∧
      ∃ (program : Program) (kept : ω),
        parse .single text = .ok program ∧
        (kept = session.world ∨
          kept = (setup.tools.cache.insert text unit (.interactive Language.fingerprint)
            session.world).2) ∧
        (program.size ≤ Binary.limit →
          let ready := { session with intake := .idle () kept }
          let ended := (Execute.block setup.directory session.env program).run
            (teed setup session.streams) (ready.workspace setup)
          next = ready.complete setup unit (ended.1.getD .ok, ended.2)) := by
  intro first session text next hunit
  have hgood : Faithful good session (linesSinceIdle setup first [] calls) :=
    (faithful_start hinitial history stdout stderr env).after hsetup calls
  obtain ⟨program, kept, hparse, hmade, hkept, hrun⟩ := hgood.run_of_completed hsetup hunit
  have hnext : next = { session with intake := .idle () kept }.execute setup unit := hrun
  have hsource : unit.source = text := by
    rw [hmade]
  refine ⟨hsource, ?_, program, kept, hparse, hkept, ?_⟩
  · rw [hnext, ← hsource]
    exact execute_records unit hgood.untapped
  · have hcode : unit.code = Program.encode program := by
      rw [hmade]
    intro hsize ready ended
    have huntapped : ready.streams.isTapped = false := hgood.untapped
    rw [hnext]
    exact execute_of_code hsetup huntapped hcode hsize

/-- A repetition that is typed in three lines runs as a repetition. -/
theorem run_executes_typed_repetition :
    let settings : Settings := ⟨.utf8, .replace, ⟨"", ""⟩, ⟨"", ""⟩, .all⟩
    let setup := CommandLine.setup Host.ofFiles settings "/cache" none
    let first := CommandLine.newSession settings .empty ⟨.empty, [], 0⟩ ⟨none, none⟩
    let session := first.after setup [.run "  repeat 2:\r\n", .run "  echo x\n"]
    let program : Program := [.loop 2 [.echo .stdout [[.lit "x"]]]]
    ∃ (unit : CompiledUnit) (kept : FileSystem),
      session.completed? setup "\n" = some unit ∧
      unit.source = "repeat 2:\n  echo x\n\n" ∧
      let ready := { session with intake := .idle () kept }
      let ended := (Execute.block setup.directory session.env program).run
        (teed setup session.streams) (ready.workspace setup)
      session.run setup "\n" = ready.complete setup unit (ended.1.getD .ok, ended.2) := by
  intro settings setup first session program
  have htext : typedText (linesSinceIdle setup first []
      [.run "  repeat 2:\r\n", .run "  echo x\n"] ++ ["\n"]) =
        "repeat 2:\n  echo x\n\n" := by
    decide +kernel +zetaReduce
  have hcode : (Language.compile "repeat 2:\n  echo x\n\n" .single stdinName).toOption.map
      CompiledUnit.code = some (Program.encode program) := by
    decide +kernel +zetaReduce
  have hsize : program.size ≤ Binary.limit := by
    decide +kernel +zetaReduce
  have hsome : (session.completed? setup "\n").isSome := by
    decide +kernel +zetaReduce
  obtain ⟨unit, hunit⟩ := Option.isSome_iff_exists.mp hsome
  obtain ⟨hsource, -, found, kept, hparse, -, hrun⟩ :=
    run_executes_typed_text (runsLines_setup Host.ofFiles_keepsFiles settings "/cache" none)
      (CommandLine.soundHost_empty [] 0) ⟨none, none⟩ (.unlimited settings.sinkKind)
      (.unlimited settings.sinkKind) .empty [.run "  repeat 2:\r\n", .run "  echo x\n"]
      "\n" unit hunit
  have hsame : parse .single "repeat 2:\n  echo x\n\n" = .ok found := by
    rw [← htext]
    exact hparse
  have hfound : found = program := by
    rw [Language.compile, hsame] at hcode
    exact Program.eq_of_encode_eq hsize (Option.some.inj hcode)
  rw [hfound] at hrun
  exact ⟨unit, kept, hunit, hsource.trans htext, hrun hsize⟩

end Session
end LineShell
