import LineShell.Language.Execute
import Mathlib.Tactic

/-!
# What a running program changes of the world

A program reaches the world through the working directory alone.  So a property
that changes of the directory keep is kept by every program, however it ends.
-/

namespace LineShell

open Output

namespace Routine

variable {ω α β : Type}

/-- A routine leaves a property of the world as it was, at every change that it may
come to. -/
def Preserves (good : ω → Prop) : Routine ω α → Prop
  | done _ => True
  | write _ _ next => ∀ result, Preserves good (next result)
  | look next => ∀ workspace, good workspace.world → Preserves good (next workspace)
  | change workspace next => good workspace.world ∧ Preserves good next

variable {good : ω → Prop}

theorem Preserves.run
    {routine : Routine ω α} (hkeeps : routine.Preserves good) (streams : Streams)
    {workspace : Workspace ω} (hgood : good workspace.world) :
    good (routine.run streams workspace).2.2.world := by
  induction routine generalizing streams workspace with
  | done a => exact hgood
  | write stream bytes next ih =>
    exact ih _ (hkeeps _) (streams.write stream bytes).2 hgood
  | look next ih => exact ih workspace (hkeeps workspace hgood) streams hgood
  | change changed next ih => exact ih hkeeps.2 streams hkeeps.1

theorem Preserves.bind
    {routine : Routine ω α} {next : α → Routine ω β} (hfirst : routine.Preserves good)
    (hnext : ∀ a, (next a).Preserves good) : (routine >>= next).Preserves good := by
  induction routine with
  | done a => exact hnext a
  | write stream bytes k ih =>
    intro result
    exact ih result (hfirst result)
  | look k ih =>
    intro workspace hgood
    exact ih workspace (hfirst workspace hgood)
  | change changed k ih => exact ⟨hfirst.1, ih hfirst.2⟩

theorem preserves_pure (a : α) : (pure a : Routine ω α).Preserves good :=
  trivial

/-- A change that follows a look has the world looked at to build on. -/
theorem preserves_modify
    {f : Workspace ω → Workspace ω}
    (hf : ∀ workspace, good workspace.world → good (f workspace).world) :
    (modify f).Preserves good := by
  intro workspace hgood
  exact ⟨hf workspace hgood, trivial⟩

theorem preserves_put (stream : Stream) (bytes : Bytes) :
    (put stream bytes : Routine ω _).Preserves good := by
  intro result
  trivial

end Routine

namespace Language
namespace Execute

open Routine

variable {ω : Type} {good : ω → Prop} {directory : WorkingDirectory ω}

theorem preserves_expanded (env : Environment) (words : List Word) :
    (expanded env words : Routine ω String).Preserves good := by
  intro workspace _
  trivial

theorem preserves_exiting : (exiting : Routine ω Bool).Preserves good := by
  intro workspace _
  trivial

theorem preserves_setStatus (f : Status → Status) :
    (setStatus f : Routine ω Step).Preserves good := by
  apply (preserves_modify fun workspace hgood => hgood).bind
  intro _
  exact preserves_pure none

theorem preserves_setVars (f : Context → Context) :
    (setVars f : Routine ω Step).Preserves good := by
  apply (preserves_modify fun workspace hgood => hgood).bind
  intro _
  exact preserves_pure none

theorem preserves_echo (env : Environment) (stream : Stream) (words : List Word) :
    (echo env stream words : Routine ω Step).Preserves good := by
  apply (preserves_expanded env words).bind
  intro line
  apply (preserves_put stream _).bind
  intro result
  cases result <;> trivial

theorem preserves_changeTo
    (hchange : ∀ path world, good world → good (directory.change path world).2)
    (target : String) : (changeTo directory target).Preserves good := by
  intro workspace hgood
  simp only [Routine.bind]
  generalize (if Path.isAbsolute target then Except.ok target
    else (directory.current workspace.world).map fun base => Path.join base target) = path?
  cases path? with
  | error reason => trivial
  | ok path =>
    dsimp only
    split
    · intro _ _
      refine ⟨hchange path workspace.world hgood, ?_⟩
      cases (directory.change path workspace.world).1 <;> trivial
    · trivial

theorem preserves_cd
    (hchange : ∀ path world, good world → good (directory.change path world).2)
    (env : Environment) (dir : Option Word) : (cd directory env dir).Preserves good := by
  cases dir with
  | some word =>
    intro workspace hgood
    exact preserves_changeTo hchange _
  | none =>
    unfold cd
    dsimp only
    split
    · exact preserves_changeTo hchange _
    · trivial

theorem preserves_times {body : Routine ω Step} (hbody : body.Preserves good) (n : Nat) :
    (times body n).Preserves good := by
  induction n with
  | zero => trivial
  | succ n ih =>
    apply preserves_exiting.bind
    intro ended
    cases ended with
    | true => trivial
    | false =>
      apply hbody.bind
      intro step
      cases step with
      | none => exact ih
      | some outcome => trivial

mutual

theorem preserves_stmt
    (hchange : ∀ path world, good world → good (directory.change path world).2)
    (env : Environment) (s : Stmt) : (stmt directory env s).Preserves good := by
  cases s with
  | echo stream words => exact preserves_echo env stream words
  | set name words =>
    apply (preserves_expanded env words).bind
    intro text
    exact preserves_setVars fun vars => vars.insert name (.ofText text)
  | unset name => exact preserves_setVars fun vars => vars.erase name
  | cd dir => exact preserves_cd hchange env dir
  | succeed => trivial
  | markFailed =>
    rw [stmt]
    exact preserves_setStatus _
  | exit code =>
    rw [stmt]
    exact preserves_setStatus _
  | fail words =>
    apply (preserves_expanded env words).bind
    intro text
    trivial
  | abort words =>
    apply (preserves_expanded env words).bind
    intro text
    trivial
  | loop count body => exact preserves_times (preserves_block hchange env body) count.toNat

theorem preserves_block
    (hchange : ∀ path world, good world → good (directory.change path world).2)
    (env : Environment) (list : List Stmt) : (block directory env list).Preserves good := by
  cases list with
  | nil => trivial
  | cons first rest =>
    apply preserves_exiting.bind
    intro ended
    cases ended with
    | true => trivial
    | false =>
      apply (preserves_stmt hchange env first).bind
      intro step
      cases step with
      | none => exact preserves_block hchange env rest
      | some outcome => trivial

end

/-- A program that no statement ends ends well. -/
theorem run_program
    (directory : WorkingDirectory ω) (env : Environment) (program : Program)
    (streams : Streams) (workspace : Workspace ω) :
    (Execute.program directory env program).run streams workspace =
      let ended := (block directory env program).run streams workspace
      (ended.1.getD .ok, ended.2) := by
  refine (Routine.run_bind (block directory env program) _ streams workspace).trans ?_
  generalize (block directory env program).run streams workspace = ended
  obtain ⟨step, after⟩ := ended
  cases step <;> rfl

end Execute

variable {ω : Type} {good : ω → Prop} {directory : WorkingDirectory ω}

theorem executor_preserves
    (hchange : ∀ path world, good world → good (directory.change path world).2)
    (unit : CompiledUnit) (env : Environment) :
    (executor directory unit env).Preserves good := by
  unfold executor
  cases hprogram : Program.decode unit.code with
  | ok program =>
    apply (Execute.preserves_block hchange env program).bind
    intro step
    cases step <;> trivial
  | error e => trivial

/-- A unit whose code is a program runs that program's statements; unless one of them
ends the run, it ends well. -/
theorem executor_run
    {unit : CompiledUnit} {program : Program}
    (hprogram : Program.decode unit.code = .ok program) (env : Environment)
    (streams : Streams) (workspace : Workspace ω) :
    (executor directory unit env).run streams workspace =
      let ended := (Execute.block directory env program).run streams workspace
      (ended.1.getD .ok, ended.2) := by
  unfold executor
  rw [hprogram]
  exact Execute.run_program directory env program streams workspace

end Language
end LineShell
