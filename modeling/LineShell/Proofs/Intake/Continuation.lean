import LineShell.Proofs.Intake.Transparency
import LineShell.Proofs.Language.Continuation

/-!
# A line that is pushed ends its own continuation

A line that is pushed gets a line end, and with it the line is no unfinished continuation
any more.  So the intake never sees one.  It takes the words up to the backslash for the
whole line, has them run if they are a statement, and waits only where these words would
have it wait anyway.
-/

namespace LineShell
namespace Intake

open Cache LineShell.Language

variable {ω : Type} {tools : Tools Unit ω}

theorem endsBlank_push_newline
    {line : String} (hne : line.toList ≠ []) (hline : '\n' ∉ line.toList) :
    endsBlank (line.push '\n') = false := by
  obtain ⟨c, rest, hreverse⟩ := List.exists_cons_of_ne_nil
    (List.reverse_ne_nil_iff.mpr hne)
  have hc : c ≠ '\n' := by
    rintro rfl
    exact hline (List.mem_reverse.mp (hreverse ▸ List.mem_cons_self))
  unfold endsBlank
  rw [String.toList_push, List.reverse_append, hreverse]
  split
  · rename_i hsplit
    simp at hsplit
  · rename_i hsplit
    simp [hc] at hsplit
  · rfl

/-- The verdict on a source of one line of words that does not end with an empty line. -/
theorem verdict_of_single_line
    {source : String} {number indent : Nat} {words : List Word}
    (hlines : Language.lines source.toList = .ok [.code number indent words])
    (hblank : endsBlank source = false) :
    verdict source (Language.compile source .single stdinName) =
      match Clause.ofWords words with
      | .ok (.whole stmt) => .ready ⟨source, .single, stdinName, Program.encode [stmt]⟩
      | .ok (.head _) => .awaiting
      | .error fault => .rejected (.malformed fault.message number (indent + 1)) := by
  unfold Language.compile Language.parse
  rw [hlines]
  dsimp only
  rw [ofLines_single_line]
  cases Clause.ofWords words with
  | error fault => rfl
  | ok clause =>
    cases clause with
    | whole stmt => rfl
    | head count =>
      unfold verdict
      dsimp only [ParseError.toCompileError]
      rw [hblank]
      rfl

/-- A new intake is given a line that the scan calls an unfinished continuation.  The
line end that it gets leaves one logical line, of the words up to the backslash, which is
also what the line says without the backslash, if there are words.  Unless the cache has a
unit for the source, these words alone settle what becomes of it: a statement is ready to
run at once, what is neither a statement nor a head of a repetition is rejected, and
the line is kept and waits only for the body of a repetition. -/
theorem pushed_continuation_is_ended
    (hcompiler : tools.compiler = CommandLine.compiler) (htransform : tools.transform = id)
    {line : String} (hline : '\n' ∉ line.toList)
    (hopen : Language.lines line.toList = .error .openContinuation)
    (world : ω) (ctx : Context) :
    let source := line.push '\n'
    let intake := Intake.idle () world
    let next := intake.push tools line ctx
    ∃ indent words,
      Language.lines source.toList = .ok [.code 1 indent words] ∧
      (words ≠ [] → Language.lines (line.toList.dropLast ++ ['\n']) =
        .ok [.code 1 indent words]) ∧
      next.1 = ⟨source,
        match intake.cached? tools source with
        | some unit => .ready unit
        | none =>
          match Clause.ofWords words with
          | .ok (.whole stmt) => .ready ⟨source, .single, stdinName, Program.encode [stmt]⟩
          | .ok (.head _) => .awaiting
          | .error fault => .rejected (.malformed fault.message 1 (indent + 1))⟩ ∧
      next.2.lines = if next.1.state = .awaiting then [source] else [] := by
  intro source intake next
  obtain ⟨indent, words, hlines, hdropped⟩ := lines_of_openContinuation hline hopen
  have hended : withLineEnd line = source := by
    have hlast : line.toList.getLast? ≠ some '\n' :=
      fun hlast => hline (List.mem_of_getLast? hlast)
    rw [withLineEnd, if_neg hlast]
  have hsaid : Language.lines source.toList = .ok [.code 1 indent words] := by
    rw [String.toList_push, hlines]
  refine ⟨indent, words, hsaid, hdropped, ?_, ?_⟩
  · have hsource : tools.transform (String.join (intake.lines ++ [withLineEnd line])) =
        source := by
      rw [hended, htransform]
      simp [intake, idle]
    have hanswers : AnswersBy tools.compiler Language.compile := by
      rw [hcompiler]
      exact compiler_answersBy
    have hblank : endsBlank source = false := by
      apply endsBlank_push_newline _ hline
      intro hnil
      rw [hnil] at hopen
      cases hopen
    rw [← verdict_of_single_line hsaid hblank]
    dsimp only [next]
    rw [push_of_not_needMore rfl, hsource, compile_state_eq hanswers]
    rfl
  · have hkept := (push_lines tools line ctx intake).1
    rw [hended] at hkept
    exact hkept

/-- The head of a repetition waits with a continuation as it does without one. -/
theorem continued_head_waits_for_its_body :
    let tools := memoryTools .all fun _ => 0
    let next := (Intake.idle () Bindings.empty).push tools "repeat 2: \\" .empty
    next.1 = ⟨"repeat 2: \\\n", .awaiting⟩ ∧ next.2.lines = ["repeat 2: \\\n"] := by
  intro tools next
  obtain ⟨indent, words, hlines, -, hpushed, hkept⟩ :=
    pushed_continuation_is_ended (rfl : tools.compiler = CommandLine.compiler) rfl
      (show '\n' ∉ "repeat 2: \\".toList by decide) (by decide +kernel) .empty .empty
  have hsaid : Language.lines "repeat 2: \\\n".toList =
      .ok [.code 1 0 [[.lit "repeat"], [.lit "2:"]]] := by
    decide +kernel
  obtain ⟨rfl, rfl⟩ : indent = 0 ∧ words = [[.lit "repeat"], [.lit "2:"]] := by
    simpa using hlines.symm.trans hsaid
  have hawaiting : next.1 = ⟨"repeat 2: \\\n", .awaiting⟩ := hpushed
  rw [hawaiting] at hkept
  exact ⟨hawaiting, hkept⟩

/-- Words with a backslash behind them run before a line comes that could go on with
them. -/
theorem continued_words_run_at_once :
    let tools := memoryTools .off fun _ => 0
    let next := (Intake.idle () Bindings.empty).push tools "echo a \\" .empty
    let stmt := Stmt.echo .stdout [[.lit "a"]]
    Language.lines "echo a \\".toList = .error .openContinuation ∧
      next.1.state = .ready ⟨"echo a \\\n", .single, stdinName, Program.encode [stmt]⟩ ∧
      next.2.lines = [] := by
  decide +kernel +zetaReduce

end Intake
end LineShell
