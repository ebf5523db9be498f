import LineShell.Proofs.Intake.Transparency
import LineShell.Proofs.Language.LookAhead

/-!
# An empty line behind an open quote

Whether a text is incomplete is for the compiler to say, and whether an empty line gives
it up is for the look ahead.  Where the two agree on quotes, an empty line behind an open
quote is one more line of the quoted text.  They agree on plain sources; elsewhere the
look ahead may miss the quote, and then the empty line costs all lines that wait.
-/

namespace LineShell
namespace Intake

open Cache

variable {ω : Type} {tools : Tools Unit ω}

/-- An empty line behind lines that wait, without a cache and a change made to sources:
the state that it leads to is the verdict on their text with the line end. -/
theorem emptyLine_verdict
    (hcompiler : tools.compiler = CommandLine.compiler) (htransform : tools.transform = id)
    (huncached : tools.cache.policy.interactive = false) (ctx : Context)
    (intake : Intake Unit ω) :
    let source := intake.text ++ "\n"
    (intake.emptyLine tools ctx).1 =
      ⟨source, verdict source (Language.compile source .single stdinName)⟩ := by
  intro source
  have hanswers : AnswersBy tools.compiler Language.compile := by
    rw [hcompiler]
    exact compiler_answersBy
  have hsource : tools.transform (String.join (intake.lines ++ ["\n"])) = source := by
    simp [htransform, String.join_append, source, text]
  rw [emptyLine_eq, hsource, compile_state_of_uncached hanswers huncached]

/-- What the empty line does behind an open quote: it waits with the others where the look
ahead is inside a literal, and else all lines are given up. -/
theorem verdict_of_openQuote
    {source : String} (hblank : endsBlank source = true)
    (hopen : Language.parse .single source = .error (.unfinished .openQuote)) :
    verdict source (Language.compile source .single stdinName) =
      if Literal.endsInside source then .awaiting
      else .rejected (.incomplete "unterminated string") := by
  have hcompile : Language.compile source .single stdinName =
      .error (.incomplete "unterminated string") := by
    rw [Language.compile, hopen]
    rfl
  rw [hcompile, verdict, hblank]
  cases Literal.endsInside source <;> rfl

/-- Lines of the line language wait, in any state that calls lead to, without a cache and a
change made to sources, and their text with one more line end breaks off in a quote.  Then
an empty line is kept with all of them where the look ahead is inside a literal, and
it is there on every plain source; where it is not, the lines are given up. -/
theorem empty_line_kept_in_plain_quotes
    (hcompiler : tools.compiler = CommandLine.compiler) (htransform : tools.transform = id)
    (huncached : tools.cache.policy.interactive = false) (world : ω) (calls : List Call)
    (ctx : Context) :
    let talk := (Conversation.start () world).run tools calls
    let source := talk.intake.text ++ "\n"
    let next := talk.intake.emptyLine tools ctx
    Language.parse .single source = .error (.unfinished .openQuote) →
      (Literal.isPlain source = true → Literal.endsInside source = true) ∧
      (Literal.endsInside source = true →
        next.1 = ⟨source, .awaiting⟩ ∧ next.2.lines = talk.intake.lines ++ ["\n"]) ∧
      (Literal.endsInside source = false →
        next.1 = ⟨source, .rejected (.incomplete "unterminated string")⟩ ∧
          next.2.lines = []) := by
  intro talk source next hopen
  have hgood : talk.Buffered := (Conversation.buffered_start () world).run calls
  have hsource : source = String.join (talk.intake.lines ++ ["\n"]) := by
    simp [source, text, String.join_append]
  have hblank : endsBlank source = true := by
    rw [hsource]
    exact endsBlank_join_append_newline fun _ hline => hgood.getLast?_of_mem hline
  have hpushed : next.1 = ⟨source, if Literal.endsInside source then .awaiting
      else .rejected (.incomplete "unterminated string")⟩ := by
    rw [← verdict_of_openQuote hblank hopen]
    exact emptyLine_verdict hcompiler htransform huncached ctx talk.intake
  have hlines := (emptyLine_lines tools ctx talk.intake).1
  refine ⟨?_, ?_, ?_⟩
  · intro hplain
    rw [Literal.endsInside_eq_of_isPlain hplain]
    exact (Language.parse_eq_openQuote_iff .single source).mp hopen
  · intro hinside
    rw [hinside, if_pos rfl] at hpushed
    refine ⟨hpushed, ?_⟩
    rw [hlines, if_pos (congrArg Pushed.state hpushed)]
  · intro houtside
    rw [houtside, if_neg Bool.false_ne_true] at hpushed
    refine ⟨hpushed, ?_⟩
    have hstate : next.1.state ≠ .awaiting := by
      rw [hpushed]
      exact fun hawaiting => by cases hawaiting
    rw [hlines, if_neg hstate]

/-- An empty line is kept in a quoted text in the body of a repetition. -/
theorem empty_line_kept_in_quoted_body :
    let tools := memoryTools .off fun _ => 0
    let calls : List Call := [.push "repeat 2:" .empty, .push "  echo 'c # d" .empty]
    let talk := (Conversation.start () .empty).run tools calls
    let source := talk.intake.text ++ "\n"
    let next := talk.intake.emptyLine tools .empty
    source = "repeat 2:\n  echo 'c # d\n\n" ∧ Literal.isPlain source = true ∧
      next.1 = ⟨source, .awaiting⟩ ∧ next.2.lines = talk.intake.lines ++ ["\n"] := by
  intro tools calls talk source next
  have hsource : source = "repeat 2:\n  echo 'c # d\n\n" := by decide +kernel +zetaReduce
  have hplain : Literal.isPlain source = true := by decide +kernel +zetaReduce
  have hopen : Language.parse .single source = .error (.unfinished .openQuote) := by
    rw [Language.parse_eq_openQuote_iff]
    decide +kernel +zetaReduce
  -- The names of the statement are unfolded, so that the calls are not run again.
  simp only [next, source, talk] at hsource hplain hopen ⊢
  obtain ⟨hinside, hkept, -⟩ :=
    empty_line_kept_in_plain_quotes (rfl : tools.compiler = CommandLine.compiler) rfl rfl
      .empty calls .empty hopen
  exact ⟨hsource, hplain, hkept (hinside hplain)⟩

/-- Behind an escaped quote the look ahead takes the quote that opens for one that closes,
and the empty line gives the lines up. -/
theorem empty_line_gives_up_behind_escaped_quote :
    let tools := memoryTools .off fun _ => 0
    let talk := (Conversation.start () .empty).run tools [.push "echo \\' 'abc" .empty]
    let next := talk.intake.emptyLine tools .empty
    talk.intake.lines = ["echo \\' 'abc\n"] ∧
      Language.parse .single (talk.intake.text ++ "\n") = .error (.unfinished .openQuote) ∧
      next.1.state = .rejected (.incomplete "unterminated string") ∧ next.2.lines = [] := by
  intro tools talk next
  rw [Language.parse_eq_openQuote_iff]
  decide +kernel +zetaReduce

end Intake
end LineShell
