import LineShell.CommandLine.Execute
import LineShell.Proofs.Session.Calls

/-!
# The session follows the working directory

A session does not see how a unit moves the working directory.  It looks once, after
the unit, and compares what it sees with the directory that its environment names.  So
a unit is followed by one change of directory or by none, and the changes that are told
of hang together: each begins where the one before it ended.
-/

namespace LineShell

open History Output Text

namespace Session

variable {γ ω η : Type}

/-! ## Trails -/

/-- The directory that the environment of a session names, the one before it, and the
changes told of, each from the old directory to the new one. -/
structure Trail where
  here : Option String
  back : Option String
  moves : List (Option String × String)
  deriving DecidableEq

def moved? : Event → Option (Option String × String)
  | .changeDirectory old new => some (old, new)
  | _ => none

def trail (session : Session γ ω η) : Trail :=
  ⟨session.env.find? Environment.pwd, session.env.find? Environment.oldPwd,
    session.events.filterMap moved?⟩

namespace Trail

/-- The trail once a directory is seen. -/
def visit (trail : Trail) (path : String) : Trail :=
  if trail.here = some path then trail
  else ⟨some path, trail.here.or trail.back, trail.moves ++ [(trail.here, path)]⟩

/-- The changes of a trail lead, one after the other, from where the first one stands to
where the trail is, and the directory before is where the last change came from that came
from anywhere. -/
structure Connects (first trail : Trail) : Prop where
  linked : trail.moves.map Prod.fst ++ [trail.here] =
    first.here :: trail.moves.map fun move => some move.2
  back_eq : trail.back = (trail.moves.filterMap Prod.fst).getLast?.or first.back

variable {first trail : Trail}

theorem connects_start (hmoves : first.moves = []) : first.Connects first := by
  constructor <;> simp [hmoves]

theorem Connects.visit (hgood : first.Connects trail) (path : String) :
    first.Connects (trail.visit path) := by
  unfold Trail.visit
  split_ifs with hsame
  · exact hgood
  · constructor
    · simp only [List.map_append, List.map_singleton, hgood.linked, List.cons_append]
    · cases hhere : trail.here with
      | none => simpa using hgood.back_eq
      | some old => simp

theorem visit_here (trail : Trail) (path : String) : (trail.visit path).here = some path := by
  unfold visit
  split_ifs with hsame
  · exact hsame
  · rfl

theorem visit_moves (trail : Trail) (path : String) :
    (trail.visit path).moves =
      trail.moves ++ if trail.here = some path then [] else [(trail.here, path)] := by
  unfold visit
  split_ifs
  · rw [List.append_nil]
  · rfl

end Trail

/-! ## What a unit does to the trail -/

theorem trail_congr
    {session next : Session γ ω η} (henv : next.env = session.env)
    (hlog : next.log = session.log) : next.trail = session.trail := by
  unfold trail events
  rw [henv, hlog]

theorem trail_record
    (setup : Setup γ ω η) (source : String) (ran : Ran ω) (session : Session γ ω η) :
    (session.record setup source ran).2.trail = session.trail := by
  unfold Session.record
  simp only [append_eq]
  unfold trail events tell
  simp [Bindings.find?_insert, Environment.pwd, Environment.oldPwd,
    Environment.lastReturnCode, moved?]

theorem trail_trackDirectory
    {setup : Setup γ ω η} {session : Session γ ω η} {path : String}
    (hseen : setup.directory.current session.world = .ok path) :
    (session.trackDirectory setup).trail = session.trail.visit path := by
  unfold trackDirectory
  rw [hseen]
  dsimp only
  by_cases hsame : session.env.find? Environment.pwd = some path
  · have hhere : session.trail.here = some path := hsame
    rw [if_pos hsame, Trail.visit, if_pos hhere]
  · have hhere : ¬session.trail.here = some path := hsame
    rw [if_neg hsame, Trail.visit, if_neg hhere]
    unfold trail events tell
    cases hold : session.env.find? Environment.pwd <;>
      simp [Bindings.find?_insert, Environment.pwd, Environment.oldPwd, moved?]

theorem trackDirectory_of_unreadable
    {setup : Setup γ ω η} {session : Session γ ω η} {reason : String}
    (hseen : setup.directory.current session.world = .error reason) :
    session.trackDirectory setup = session := by
  unfold trackDirectory
  rw [hseen]

theorem trail_announce (unit : CompiledUnit) (session : Session γ ω η) :
    (session.announce unit).trail = session.trail := by
  unfold trail events announce tell
  simp [moved?]

/-- However a unit ends, the trail goes on by the one directory that is seen after it. -/
theorem trail_execute
    {setup : Setup γ ω η} {session : Session γ ω η} (unit : CompiledUnit)
    (huntapped : session.streams.isTapped = false) :
    let next := (session.execute setup unit).2
    next.trail = match setup.directory.current next.world with
      | .ok path => session.trail.visit path
      | .error _ => session.trail := by
  intro next
  obtain ⟨recorded, hnext, htrail⟩ : ∃ recorded : Session γ ω η,
      next = recorded.trackDirectory setup ∧ recorded.trail = session.trail := by
    refine ⟨_, (congrArg Prod.snd (execute_eq_complete unit huntapped)).trans
      (conclude_session setup unit.source (session.announce unit) _), ?_⟩
    rw [trail_record, ← trail_announce unit session]
    exact trail_congr rfl rfl
  have hworld : next.world = recorded.world := by
    rw [hnext]
    exact congrArg Intake.world (trackDirectory_frame setup recorded).1
  rw [hworld, hnext, ← htrail]
  cases hseen : setup.directory.current recorded.world with
  | ok path => exact trail_trackDirectory hseen
  | error reason => rw [trackDirectory_of_unreadable hseen]

theorem trail_execute_of_tapped
    {setup : Setup γ ω η} {session : Session γ ω η} (unit : CompiledUnit)
    (htapped : session.streams.isTapped = true) :
    (session.execute setup unit).2.trail = session.trail := by
  rw [← trail_announce unit session]
  unfold execute
  simp only [Tee.start, tell, htapped, if_true]
  rfl

/-! ## Sessions whose environment is left to them -/

/-- What the owner of a session may do with it and leave the environment alone: give it
lines and units, change the variables, and put the intake and the world behind it into any
state, as by interrupting the input, compiling a script or moving the directory. -/
inductive Deed (γ ω : Type) where
  | run (line : String)
  | execute (unit : CompiledUnit)
  | assign (vars : Context)
  | arrange (intake : Intake γ ω)

namespace Deed

def perform (setup : Setup γ ω η) (session : Session γ ω η) : Deed γ ω → Session γ ω η
  | .run line => (session.run setup line).2
  | .execute unit => (session.execute setup unit).2
  | .assign vars => { session with vars := vars }
  | .arrange intake => { session with intake := intake }

/-- The unit that the executor is given; streams that have a tap already refuse it. -/
def executed? (setup : Setup γ ω η) (session : Session γ ω η) (deed : Deed γ ω) :
    Option CompiledUnit :=
  if session.streams.isTapped then none
  else match deed with
    | .run line => session.completed? setup line
    | .execute unit => some unit
    | .assign _ | .arrange _ => none

variable {setup : Setup γ ω η} {session : Session γ ω η} {deed : Deed γ ω}

theorem trail_perform_of_executed
    {unit : CompiledUnit} (hunit : deed.executed? setup session = some unit) :
    let next := deed.perform setup session
    next.trail = match setup.directory.current next.world with
      | .ok path => session.trail.visit path
      | .error _ => session.trail := by
  have huntapped : session.streams.isTapped = false := by
    by_contra htapped
    simp [executed?, htapped] at hunit
  cases deed with
  | run line =>
    have hcompleted : session.completed? setup line = some unit := by
      simpa [executed?, huntapped] using hunit
    obtain ⟨source, intake, -, hrun⟩ := run_of_completed hcompleted
    simp only [perform, hrun]
    exact trail_execute unit huntapped
  | execute found => exact trail_execute found huntapped
  | assign vars => simp [executed?] at hunit
  | arrange intake => simp [executed?] at hunit

theorem trail_perform_of_not_executed (hnone : deed.executed? setup session = none) :
    (deed.perform setup session).trail = session.trail := by
  cases deed with
  | run line =>
    cases hcompleted : session.completed? setup line with
    | none =>
      obtain ⟨intake, streams, -, hrun⟩ := run_of_not_completed hcompleted
      simp only [perform, hrun]
      exact trail_congr rfl rfl
    | some unit =>
      obtain ⟨source, intake, -, hrun⟩ := run_of_completed hcompleted
      simp only [perform, hrun]
      exact trail_execute_of_tapped unit (by simpa [executed?, hcompleted] using hnone)
  | execute unit => exact trail_execute_of_tapped unit (by simpa [executed?] using hnone)
  | assign vars => exact trail_congr rfl rfl
  | arrange intake => exact trail_congr rfl rfl

/-- Whatever is done, the trail goes on by one directory or not at all. -/
theorem connects_perform
    {first : Trail} (hgood : first.Connects session.trail) (deed : Deed γ ω) :
    first.Connects (deed.perform setup session).trail := by
  cases hunit : deed.executed? setup session with
  | none =>
    rw [trail_perform_of_not_executed hunit]
    exact hgood
  | some unit =>
    rw [trail_perform_of_executed hunit]
    split
    · exact hgood.visit _
    · exact hgood

end Deed

def following (session : Session γ ω η) (setup : Setup γ ω η) (deeds : List (Deed γ ω)) :
    Session γ ω η :=
  deeds.foldl (fun session deed => deed.perform setup session) session

theorem connects_following
    {setup : Setup γ ω η} {first : Trail} {session : Session γ ω η}
    (hgood : first.Connects session.trail) (deeds : List (Deed γ ω)) :
    first.Connects (session.following setup deeds).trail := by
  induction deeds generalizing session with
  | nil => exact hgood
  | cons deed rest ih => exact ih (Deed.connects_perform hgood deed)

/-- Whatever units do, and whatever is done to a new session besides changing its
environment: the changes of directory that were told of lead, one after the other, from
the directory that the environment named at first to the one that it names now; the
directory before is where the last change came from that came from anywhere, or the one
named so at first.  A unit after which the directory can be read leaves the environment
naming it, and tells of a change exactly if it named another one before, and of
one change only.  Nothing else tells of a change or has the environment name another
directory. -/
theorem directory_changes_hang_together
    (setup : Setup γ ω η) (service : γ) (world : ω) (history : η) (streams : Streams)
    (env : Environment) (deeds : List (Deed γ ω)) :
    let session := (start service world history streams env).following setup deeds
    let trail := session.trail
    trail.moves.map Prod.fst ++ [trail.here] =
        env.find? Environment.pwd :: trail.moves.map (fun move => some move.2) ∧
      trail.back = (trail.moves.filterMap Prod.fst).getLast?.or
        (env.find? Environment.oldPwd) ∧
      ∀ deed : Deed γ ω,
        let next := deed.perform setup session
        (deed.executed? setup session = none → next.trail = trail) ∧
        ∀ unit path, deed.executed? setup session = some unit →
          setup.directory.current next.world = .ok path →
          next.trail.here = some path ∧
            next.trail.moves =
              trail.moves ++ if trail.here = some path then [] else [(trail.here, path)] := by
  intro session trail
  have hgood : (start service world history streams env).trail.Connects trail :=
    connects_following (Trail.connects_start rfl) deeds
  refine ⟨hgood.linked, hgood.back_eq, ?_⟩
  intro deed next
  refine ⟨Deed.trail_perform_of_not_executed, ?_⟩
  intro unit path hunit hseen
  have hnext : next.trail = trail.visit path := by
    have hstep := Deed.trail_perform_of_executed hunit
    dsimp only at hstep
    rw [hseen] at hstep
    exact hstep
  rw [hnext]
  exact ⟨trail.visit_here path, trail.visit_moves path⟩

/-- A unit that moves twice and then fails is followed by one change, to where it ended. -/
theorem two_moves_told_once :
    let settings : Settings := ⟨.utf8, .replace, .none, .none, .off⟩
    let setup := CommandLine.setup Host.ofFiles settings "/cache" none
    let world : FileSystem := ⟨.ofList [(["b"], .directory 0)], [], 0⟩
    let deeds : List (Deed Unit FileSystem) :=
      [.run "true", .run "repeat 1:", .run "  cd /b/..", .run "  cd b", .run "  fail oh"]
    let session := (CommandLine.newSession settings .empty world ⟨none, none⟩).following setup
      deeds
    let next := Deed.perform setup session (.run "")
    session.trail.moves = [(none, "/")] ∧ next.trail.here = some "/b" ∧
      next.trail.moves = [(none, "/"), (some "/", "/b")] := by
  intro settings setup world deeds session next
  have hmoves : session.trail.moves = [(none, "/")] := by decide +kernel +zetaReduce
  obtain ⟨unit, hunit⟩ : ∃ unit, Deed.executed? setup session (.run "") = some unit := by
    rw [← Option.isSome_iff_exists]
    decide +kernel +zetaReduce
  have hseen : setup.directory.current next.world = .ok "/b" := by decide +kernel +zetaReduce
  obtain ⟨hlinked, -, hstep⟩ := directory_changes_hang_together setup () world ⟨none, none⟩
    (.ofSinks (.unlimited settings.sinkKind) (.unlimited settings.sinkKind)) .empty deeds
  obtain ⟨hhere, hnext⟩ := (hstep (.run "")).2 unit "/b" hunit hseen
  -- The changes told of so far lead to where the unit begins.
  have hbefore : session.trail.here = some "/" := by
    have hplaces : session.trail.moves.map Prod.fst ++ [session.trail.here] =
        none :: session.trail.moves.map fun move => some move.2 := hlinked
    rw [hmoves] at hplaces
    simpa using hplaces
  have hgrown : next.trail.moves = session.trail.moves ++
      if session.trail.here = some "/b" then [] else [(session.trail.here, "/b")] := hnext
  rw [hmoves, hbefore] at hgrown
  exact ⟨hmoves, hhere, hgrown⟩

end Session
end LineShell
