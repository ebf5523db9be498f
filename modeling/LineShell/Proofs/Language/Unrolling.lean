import LineShell.Proofs.Language.Execute

/-!
# Repetitions are copies of their bodies

A program runs its statements from the first to the last and stops early in two ways: a
statement ends the run with an outcome, or the session is to end.  In both ways a run of
one list that is followed by a run of another is a run of the two lists put together.  So
a repetition runs as the copies of its body do, at any depth, and what stands behind an
exit is never reached.
-/

namespace LineShell
namespace Language

open Output

/-! ## Flat programs -/

def Stmt.isLoop : Stmt → Bool
  | .loop _ _ => true
  | _ => false

mutual

/-- A statement with each repetition replaced by the copies of its body. -/
def Stmt.unrolled : Stmt → Program
  | .loop count body => (List.replicate count.toNat (Program.unrolled body)).flatten
  | stmt => [stmt]

/-- A program with each repetition replaced by the copies of its body. -/
def Program.unrolled : Program → Program
  | [] => []
  | first :: rest => Stmt.unrolled first ++ Program.unrolled rest

end

/-- A list of statements up to its first exit, which is the last one kept. -/
def Program.upToExit : Program → Program
  | [] => []
  | .exit code :: _ => [.exit code]
  | first :: rest => first :: upToExit rest

theorem Stmt.unrolled_of_not_loop {stmt : Stmt} (hflat : stmt.isLoop = false) :
    stmt.unrolled = [stmt] := by
  cases stmt with
  | loop count body => cases hflat
  | _ => simp [Stmt.unrolled]

theorem Program.upToExit_cons_of_not_exit
    {first : Stmt} (hgoes : ∀ code, first ≠ .exit code) (rest : Program) :
    upToExit (first :: rest) = first :: upToExit rest := by
  cases first with
  | exit code => exact absurd rfl (hgoes code)
  | _ => simp [upToExit]

mutual

theorem Stmt.isLoop_of_mem_unrolled (stmt : Stmt) :
    ∀ flat ∈ stmt.unrolled, flat.isLoop = false := by
  cases stmt with
  | loop count body =>
    intro flat hmem
    rw [Stmt.unrolled] at hmem
    obtain ⟨copy, hcopy, hflat⟩ := List.mem_flatten.mp hmem
    rw [List.eq_of_mem_replicate hcopy] at hflat
    exact Program.isLoop_of_mem_unrolled body flat hflat
  | _ =>
    intro flat hmem
    rw [Stmt.unrolled_of_not_loop rfl, List.mem_singleton] at hmem
    rw [hmem]
    rfl

theorem Program.isLoop_of_mem_unrolled (program : Program) :
    ∀ flat ∈ program.unrolled, flat.isLoop = false := by
  cases program with
  | nil =>
    intro flat hmem
    rw [Program.unrolled] at hmem
    cases hmem
  | cons first rest =>
    intro flat hmem
    rw [Program.unrolled] at hmem
    rcases List.mem_append.mp hmem with hfirst | hrest
    · exact Stmt.isLoop_of_mem_unrolled first flat hfirst
    · exact Program.isLoop_of_mem_unrolled rest flat hrest

end

namespace Execute

variable {ω : Type}

/-! ## Runs that follow one another -/

/-- What a run leaves: how it ended, the streams and the workspace. -/
abbrev Ended (ω : Type) := Step × Streams × Workspace ω

/-- A run and what is run behind it, unless an outcome ended the first. -/
def Ended.andThen (ended : Ended ω) (next : Streams → Workspace ω → Ended ω) : Ended ω :=
  match ended.1 with
  | some _ => ended
  | none => next ended.2.1 ended.2.2

theorem Ended.andThen_assoc
    (ended : Ended ω) (next last : Streams → Workspace ω → Ended ω) :
    (ended.andThen next).andThen last =
      ended.andThen fun streams workspace => (next streams workspace).andThen last := by
  obtain ⟨step, streams, workspace⟩ := ended
  cases step <;> rfl

theorem Ended.andThen_stop (ended : Ended ω) :
    (ended.andThen fun streams workspace => (none, streams, workspace)) = ended := by
  obtain ⟨step, streams, workspace⟩ := ended
  cases step <;> rfl

theorem run_bind_step
    (first : Routine ω Step) (rest : Routine ω Step) (streams : Streams)
    (workspace : Workspace ω) :
    Routine.run (do
        match ← first with
        | some outcome => pure (some outcome)
        | none => rest) streams workspace =
      Ended.andThen (first.run streams workspace) rest.run := by
  refine (Routine.run_bind first _ streams workspace).trans ?_
  generalize first.run streams workspace = ended
  obtain ⟨step, streams, workspace⟩ := ended
  cases step <;> rfl

/-- A routine that looks first whether the session is to end. -/
theorem run_unless_exiting
    (routine : Routine ω Step) (streams : Streams) (workspace : Workspace ω) :
    Routine.run (do if ← exiting then pure none else routine) streams workspace =
      if workspace.status.exitRequested then (none, streams, workspace)
      else routine.run streams workspace := by
  refine (Routine.run_bind exiting _ streams workspace).trans ?_
  have hlook : exiting.run streams workspace =
      (workspace.status.exitRequested, streams, workspace) := rfl
  rw [hlook]
  dsimp only
  cases workspace.status.exitRequested <;> rfl

variable (directory : WorkingDirectory ω) (env : Environment)

theorem run_block_nil (streams : Streams) (workspace : Workspace ω) :
    (block directory env []).run streams workspace = (none, streams, workspace) := by
  rw [block]
  rfl

theorem run_block_cons
    (first : Stmt) (rest : Program) (streams : Streams) (workspace : Workspace ω) :
    (block directory env (first :: rest)).run streams workspace =
      if workspace.status.exitRequested then (none, streams, workspace)
      else Ended.andThen ((stmt directory env first).run streams workspace)
        (block directory env rest).run := by
  rw [block, run_unless_exiting]
  exact congrArg _ (run_bind_step _ _ streams workspace)

theorem run_times_succ
    (body : Routine ω Step) (n : Nat) (streams : Streams) (workspace : Workspace ω) :
    (times body (n + 1)).run streams workspace =
      if workspace.status.exitRequested then (none, streams, workspace)
      else Ended.andThen (body.run streams workspace) (times body n).run := by
  rw [times, run_unless_exiting]
  exact congrArg _ (run_bind_step _ _ streams workspace)

/-- Where the session is to end, nothing is run. -/
theorem run_block_of_exiting
    (program : Program) (streams : Streams) {workspace : Workspace ω}
    (hexit : workspace.status.exitRequested = true) :
    (block directory env program).run streams workspace = (none, streams, workspace) := by
  cases program with
  | nil => exact run_block_nil directory env streams workspace
  | cons first rest => rw [run_block_cons, if_pos hexit]

theorem run_block_append
    (front back : Program) (streams : Streams) (workspace : Workspace ω) :
    (block directory env (front ++ back)).run streams workspace =
      Ended.andThen ((block directory env front).run streams workspace)
        (block directory env back).run := by
  induction front generalizing streams workspace with
  | nil =>
    rw [run_block_nil]
    rfl
  | cons first rest ih =>
    rw [List.cons_append, run_block_cons, run_block_cons]
    split_ifs with hexit
    · exact (run_block_of_exiting directory env back streams hexit).symm
    · rw [Ended.andThen_assoc]
      exact congrArg _ (funext fun streams => funext fun workspace => ih streams workspace)

/-! ## Copies -/

/-- A body that is run a number of times is a list of as many copies of it. -/
theorem run_times_block
    (body : Program) (n : Nat) (streams : Streams) (workspace : Workspace ω) :
    (times (block directory env body) n).run streams workspace =
      (block directory env (List.replicate n body).flatten).run streams workspace := by
  induction n generalizing streams workspace with
  | zero => exact (run_block_nil directory env streams workspace).symm
  | succ n ih =>
    rw [run_times_succ, List.replicate_succ, List.flatten_cons, run_block_append]
    split_ifs with hexit
    · rw [run_block_of_exiting directory env body streams hexit]
      exact (run_block_of_exiting directory env _ streams hexit).symm
    · exact congrArg _ (funext fun streams => funext fun workspace => ih streams workspace)

theorem run_times_congr
    {body other : Routine ω Step} (hsame : body.run = other.run) (n : Nat) :
    (times body n).run = (times other n).run := by
  induction n with
  | zero => rfl
  | succ n ih =>
    funext streams workspace
    rw [run_times_succ, run_times_succ, hsame, ih]

mutual

theorem run_stmt_unrolled
    (first : Stmt) (streams : Streams) {workspace : Workspace ω}
    (hgoes : workspace.status.exitRequested = false) :
    (block directory env first.unrolled).run streams workspace =
      (stmt directory env first).run streams workspace := by
  cases first with
  | loop count body =>
    rw [Stmt.unrolled, ← run_times_block, stmt]
    exact congrFun (congrFun (run_times_congr (run_block_unrolled body) count.toNat)
      streams) workspace
  | _ =>
    rw [Stmt.unrolled_of_not_loop rfl, run_block_cons, hgoes, if_neg Bool.false_ne_true]
    refine Eq.trans (congrArg _ ?_) (Ended.andThen_stop _)
    exact funext fun streams => funext fun workspace =>
      run_block_nil directory env streams workspace

theorem run_block_unrolled (program : Program) :
    (block directory env program.unrolled).run = (block directory env program).run := by
  funext streams workspace
  cases program with
  | nil => rw [Program.unrolled]
  | cons first rest =>
    rw [Program.unrolled, run_block_append, run_block_cons, run_block_unrolled rest]
    split_ifs with hexit
    · rw [run_block_of_exiting directory env _ streams hexit]
      exact run_block_of_exiting directory env rest streams hexit
    · rw [run_stmt_unrolled first streams (Bool.eq_false_iff.mpr hexit)]

end

/-! ## Exits -/

theorem run_exit (code : Option Int32) (streams : Streams) (workspace : Workspace ω) :
    (stmt directory env (.exit code)).run streams workspace =
      (none, streams, { workspace with
        status := { workspace.status with
          returnCode := some (code.getD successCode), exitRequested := true } }) := by
  rw [stmt]
  rfl

/-- Behind an exit the session is to end, so nothing more is run. -/
theorem run_block_exit
    (code : Option Int32) (rest : Program) (streams : Streams) (workspace : Workspace ω) :
    (block directory env (.exit code :: rest)).run streams workspace =
      (block directory env [.exit code]).run streams workspace := by
  rw [run_block_cons, run_block_cons, run_exit]
  refine congrArg _ ?_
  exact (run_block_of_exiting directory env rest streams rfl).trans
    (run_block_of_exiting directory env [] streams rfl).symm

theorem run_block_upToExit (program : Program) :
    (block directory env program.upToExit).run = (block directory env program).run := by
  induction program with
  | nil => rw [Program.upToExit]
  | cons first rest ih =>
    funext streams workspace
    cases first with
    | exit code =>
      rw [Program.upToExit]
      exact (run_block_exit directory env code rest streams workspace).symm
    | _ =>
      rw [Program.upToExit_cons_of_not_exit (by simp), run_block_cons, run_block_cons, ih]

end Execute

variable {ω : Type}

/-- A program runs as the flat one in which every repetition is replaced by the copies of
its body, at any depth, and as that one cut off behind its first exit: it ends with the
same outcome and leaves the same variables, status, world and streams.  So programs that
have this much in common run alike, whatever stands behind the exit. -/
theorem repetitions_run_as_copies
    (directory : WorkingDirectory ω) (env : Environment) (program : Program)
    (streams : Streams) (workspace : Workspace ω) :
    let run (program : Program) :=
      (Execute.program directory env program).run streams workspace
    (∀ flat ∈ program.unrolled, flat.isLoop = false) ∧
      run program = run program.unrolled ∧
      run program = run program.unrolled.upToExit ∧
      ∀ other : Program, other.unrolled.upToExit = program.unrolled.upToExit →
        run other = run program := by
  intro run
  have hcopies : ∀ program : Program, run program.unrolled = run program := by
    intro program
    unfold run
    rw [Execute.run_program, Execute.run_program, Execute.run_block_unrolled]
  have hcut : ∀ program : Program, run program.unrolled.upToExit = run program := by
    intro program
    refine Eq.trans ?_ (hcopies program)
    unfold run
    rw [Execute.run_program, Execute.run_program, Execute.run_block_upToExit]
  refine ⟨program.isLoop_of_mem_unrolled, (hcopies program).symm, (hcut program).symm, ?_⟩
  intro other hsame
  rw [← hcut other, hsame, hcut]

/-- An exit in the body of a repetition in another one's is all that is left of both. -/
theorem nothing_runs_behind_nested_exit :
    let program : Program := [.loop 2 [.succeed, .loop 3 [.exit (some 4), .cd none]], .abort []]
    let sink := Sink.unlimited .binary
    let run (program : Program) :=
      (Execute.program WorkingDirectory.ofFiles .empty program).run (.ofSinks sink sink)
        ⟨.empty, .initial, ⟨.empty, [], 0⟩⟩
    Program.upToExit (Program.unrolled program) = [.succeed, .exit (some 4)] ∧
      run [.succeed, .exit (some 4)] = run program := by
  intro program sink run
  have hcut : Program.upToExit (Program.unrolled program) = [.succeed, .exit (some 4)] := rfl
  obtain ⟨-, -, -, hsame⟩ := repetitions_run_as_copies WorkingDirectory.ofFiles .empty program
    (.ofSinks sink sink) ⟨.empty, .initial, ⟨.empty, [], 0⟩⟩
  exact ⟨hcut, hsame [.succeed, .exit (some 4)] (hcut ▸ rfl)⟩

end Language
end LineShell
