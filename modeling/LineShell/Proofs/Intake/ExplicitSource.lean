import LineShell.Proofs.Intake.Transparency

/-!
# A source of its own before a line

A source may be compiled apart from the lines that are typed.  An idle intake that does so
keeps no line of it, but where the source is incomplete it asks for more all the same.  The
next line is then taken for one of several that wait: it is kept, and nothing is compiled.
In every other case the line is answered as if the source had not been there.
-/

namespace LineShell
namespace Intake

open Cache LineShell.Language

variable {γ ω : Type} {tools : Tools γ ω}

/-- Without a cache, what the compiler answers settles what becomes of a source and what is
left of the intake. -/
theorem compile_of_uncached
    (huncached : tools.cache.policy.interactive = false) (source : String) (ctx : Context)
    (intake : Intake γ ω) :
    let answer := tools.compiler.compile source .single stdinName ctx intake.service
    let state := verdict source answer.1
    intake.compile tools source ctx =
      (state,
        if state = .awaiting then { intake with service := answer.2, needMore := true }
        else { intake with service := answer.2 }.reset) := by
  intro answer state
  have hallows : tools.cache.policy.allows .single = false := huncached
  have hcached : intake.cached? tools source = none := by
    rw [cached?, hallows]
    rfl
  have hoffer : ∀ unit (other : Intake γ ω), other.offer tools source unit = other := by
    intro unit other
    rw [offer, hallows]
    rfl
  have hfresh : intake.compile tools source ctx = intake.compileFresh tools source ctx := by
    rw [compile, hcached]
  rw [hfresh, compileFresh_eq]
  cases hanswer : answer.1 with
  | ok unit => simp [state, answer, hanswer, verdict, hoffer]
  | error e =>
    by_cases hincomplete : e.isIncomplete = true
    · by_cases hended : (endsBlank source && !Literal.endsInside source) = true
      · simp [state, answer, hanswer, verdict, hincomplete, hended]
      · simp [state, answer, hanswer, verdict, hincomplete, hended]
    · simp [state, answer, hanswer, verdict, hincomplete]

/-- Two new intakes answer a line alike if their compilers do. -/
theorem push_idle_congr
    (huncached : tools.cache.policy.interactive = false) {service other : γ} {ctx : Context}
    (halike : ∀ text, (tools.compiler.compile text .single stdinName ctx service).1 =
      (tools.compiler.compile text .single stdinName ctx other).1)
    (world elsewhere : ω) (line : String) :
    ((Intake.idle service world).push tools line ctx).1 =
      ((Intake.idle other elsewhere).push tools line ctx).1 := by
  rw [push_of_not_needMore rfl, push_of_not_needMore rfl, compile_of_uncached huncached,
    compile_of_uncached huncached]
  simp only [idle, halike]

/-- An idle intake without a cache for typed input compiles a source of its own, and then
takes a line.  Whatever the compiler, the verdict on its answer settles what becomes of the
source, of which no line is kept.  Unless more of it is awaited, the line is answered as a
new intake answers it whose compiler answers as this one now does.  If more is awaited, the
line is kept and awaited too, and neither the compiler nor the source is heard of. -/
theorem line_behind_explicit_source
    (huncached : tools.cache.policy.interactive = false) {service other : γ}
    {source : String} {ctx later : Context}
    (halike : ∀ text,
      (tools.compiler.compile text .single stdinName later
        (tools.compiler.compile source .single stdinName ctx service).2).1 =
      (tools.compiler.compile text .single stdinName later other).1)
    (world elsewhere : ω) (line : String) :
    let answer := tools.compiler.compile source .single stdinName ctx service
    let compiled := (Intake.idle service world).compile tools source ctx
    let next := compiled.2.push tools line later
    let alone := (Intake.idle other elsewhere).push tools line later
    compiled.1 = verdict source answer.1 ∧ compiled.2.lines = [] ∧
      (compiled.1 ≠ .awaiting → next.1 = alone.1) ∧
      (compiled.1 = .awaiting →
        next = (⟨withLineEnd line, .awaiting⟩,
          ⟨[withLineEnd line], true, answer.2, world⟩)) := by
  intro answer compiled next alone
  have hcompiled : compiled = _ :=
    compile_of_uncached huncached source ctx (Intake.idle service world)
  refine ⟨congrArg Prod.fst hcompiled, ?_, ?_, ?_⟩
  · rw [hcompiled]
    dsimp only
    split_ifs <;> rfl
  · intro hsettled
    have hstate : verdict source answer.1 ≠ .awaiting := by
      rwa [hcompiled] at hsettled
    have hidle : compiled.2 = Intake.idle answer.2 world := by
      rw [hcompiled]
      exact if_neg hstate
    have hnext : next = (Intake.idle answer.2 world).push tools line later := by
      rw [← hidle]
    rw [hnext]
    exact push_idle_congr huncached halike world elsewhere line
  · intro hawaiting
    have hstate : verdict source answer.1 = .awaiting := by
      rwa [hcompiled] at hawaiting
    have hleft : compiled.2 = ⟨[], true, answer.2, world⟩ := by
      rw [hcompiled]
      exact if_pos hstate
    have hnext : next = push tools line later ⟨[], true, answer.2, world⟩ := by
      rw [← hleft]
    rw [hnext, push_of_needMore rfl]
    simp

/-- A source that is malformed leaves the line behind it alone. -/
theorem line_behind_malformed_source :
    let tools := memoryTools .off fun _ => 0
    let fresh := Intake.idle () Bindings.empty
    let compiled := fresh.compile tools "repeat x:\n" .empty
    let next := compiled.2.push tools "echo a" .empty
    let alone := fresh.push tools "echo a" .empty
    compiled.1 ≠ .awaiting ∧ compiled.2.lines = [] ∧ next.1 = alone.1 ∧
      next.1.state ≠ .awaiting := by
  intro tools fresh compiled next alone
  have hrejected : compiled.1 ≠ .awaiting := by decide +kernel +zetaReduce
  have hran : alone.1.state ≠ .awaiting := by decide +kernel +zetaReduce
  obtain ⟨-, hlines, hsame, -⟩ :=
    line_behind_explicit_source (rfl : tools.cache.policy.interactive = false)
      (fun _ => rfl) .empty .empty "echo a"
  exact ⟨hrejected, hlines, hsame hrejected, by rwa [hsame hrejected]⟩

/-- The head of a repetition, compiled on its own, has the intake take the next statement
for a part of something that it does not have. -/
theorem line_behind_incomplete_source_waits :
    let tools := memoryTools .off fun _ => 0
    let fresh := Intake.idle () Bindings.empty
    let compiled := fresh.compile tools "repeat 2:\n" .empty
    let next := compiled.2.push tools "true" .empty
    let alone := fresh.push tools "true" .empty
    compiled.1 = .awaiting ∧ compiled.2.lines = [] ∧ next.1 = ⟨"true\n", .awaiting⟩ ∧
      alone.1 = ⟨"true\n", .ready ⟨"true\n", .single, stdinName, Program.encode [.succeed]⟩⟩ ∧
      next.1 ≠ alone.1 := by
  decide +kernel +zetaReduce

end Intake
end LineShell
