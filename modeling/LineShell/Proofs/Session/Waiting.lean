import LineShell.Proofs.Intake.Buffering
import LineShell.Proofs.Session.Calls

/-!
# The lines that wait in a session

A session takes its lines in without the blanks before the first one and without
their line ends, and keeps them while the intake asks for more.  So the lines that wait
are those that it was given since none waited, whatever it works with.
-/

namespace LineShell
namespace Session

open Output Text

variable {γ ω η : Type}

/-! ## Typed text -/

def lineText (line : String) : String :=
  Intake.withLineEnd (String.ofList (withoutLineEnd line.toList))

/-- What a line adds as the first one, whose indentation does not count. -/
def firstLineText (line : String) : String :=
  Intake.withLineEnd (String.ofList (trimStart (withoutLineEnd line.toList)))

/-- The lines of a text as they are typed one after the other. -/
def typedLines : List String → List String
  | [] => []
  | first :: rest => firstLineText first :: rest.map lineText

/-- The text that lines make as they are typed. -/
def typedText (lines : List String) : String :=
  String.join (typedLines lines)

theorem typedLines_append_of_ne_nil
    {lines : List String} (hlines : lines ≠ []) (line : String) :
    typedLines (lines ++ [line]) = typedLines lines ++ [lineText line] := by
  cases lines with
  | nil => exact absurd rfl hlines
  | cons first rest => simp [typedLines]

theorem typedLines_eq_nil_iff {lines : List String} : typedLines lines = [] ↔ lines = [] := by
  cases lines <;> simp [typedLines]

theorem typedLines_getLast?
    {lines : List String} {line : String} (hline : line ∈ typedLines lines) :
    line.toList.getLast? = some '\n' := by
  cases lines with
  | nil => simp [typedLines] at hline
  | cons first rest =>
    simp only [typedLines, List.mem_cons, List.mem_map] at hline
    rcases hline with rfl | ⟨later, _, rfl⟩
    · exact Intake.withLineEnd_getLast? _
    · exact Intake.withLineEnd_getLast? _

def Call.lines : Call → List String
  | .run line => [line]
  | .execute _ | .interrupt | .assign .. | .compileFile .. => []

/-- The lines that were given to a session, besides given ones, since its intake last
had none waiting. -/
def linesSinceIdle (setup : Setup γ ω η) :
    Session γ ω η → List String → List Call → List String
  | _, lines, [] => lines
  | session, lines, call :: rest =>
    let next := (call.perform setup session).2
    linesSinceIdle setup next
      (if next.intake.isAccumulating then lines ++ call.lines else []) rest

/-! ## The invariant -/

/-- The lines that wait are those that were typed since none waited, and no tee is
open. -/
structure Retains (session : Session γ ω η) (lines : List String) : Prop where
  lines_eq : session.intake.lines = typedLines lines
  untapped : session.streams.isTapped = false

variable {setup : Setup γ ω η} {session : Session γ ω η} {lines : List String}

theorem retains_start
    (service : γ) (world : ω) (history : η) (stdout stderr : Sink) (env : Environment) :
    Retains (start service world history (.ofSinks stdout stderr) env) [] := by
  constructor
  · rfl
  · rfl

theorem Retains.isAccumulating_eq (hgood : Retains session lines) :
    session.intake.isAccumulating = !lines.isEmpty := by
  unfold Intake.isAccumulating
  rw [hgood.lines_eq]
  cases lines <;> rfl

theorem Retains.refresh (hgood : Retains session lines) :
    Retains session (if session.intake.isAccumulating then lines else []) := by
  rw [hgood.isAccumulating_eq]
  cases lines with
  | nil => exact hgood
  | cons first rest => exact hgood

/-! ## One line -/

/-- A line is nothing only if it is blank and no line waits. -/
theorem Retains.feed?_eq_none
    (hgood : Retains session lines) {line : String}
    (hfed : session.feed? setup line = none) :
    lines = [] ∧ trim (withoutLineEnd line.toList) = [] := by
  unfold feed? at hfed
  rw [hgood.isAccumulating_eq] at hfed
  cases lines with
  | nil =>
    simp only [List.isEmpty_nil, Bool.not_true, Bool.false_eq_true, if_false] at hfed
    split at hfed
    · rename_i hblank
      exact ⟨rfl, List.isEmpty_iff.mp hblank⟩
    · cases hfed
  | cons first rest =>
    simp only [List.isEmpty_cons, Bool.not_false, if_true] at hfed
    split at hfed
    · cases hfed
    · cases hfed

/-- Any other line reaches the intake with its text, and an empty one among lines that
wait as an empty line. -/
theorem Retains.feed?_eq_some
    (hgood : Retains session lines) {line : String} {fed : Pushed × Intake γ ω}
    (hfed : session.feed? setup line = some fed) :
    (∃ text,
        typedLines (lines ++ [line]) = session.intake.lines ++ [Intake.withLineEnd text] ∧
          fed = session.intake.push setup.tools text session.vars) ∨
      typedLines (lines ++ [line]) = session.intake.lines ++ ["\n"] ∧
        fed = session.intake.emptyLine setup.tools session.vars := by
  unfold feed? at hfed
  rw [hgood.isAccumulating_eq] at hfed
  cases lines with
  | nil =>
    simp only [List.isEmpty_nil, Bool.not_true, Bool.false_eq_true, if_false] at hfed
    split at hfed
    · cases hfed
    · left
      rw [hgood.lines_eq]
      exact ⟨String.ofList (trimStart (withoutLineEnd line.toList)), rfl,
        (Option.some.inj hfed).symm⟩
  | cons first rest =>
    rw [typedLines_append_of_ne_nil (by simp), ← hgood.lines_eq]
    simp only [List.isEmpty_cons, Bool.not_false, if_true] at hfed
    split at hfed
    · rename_i hempty
      have hline : lineText line = "\n" := by
        rw [lineText, List.isEmpty_iff.mp hempty]
        rfl
      rw [hline]
      exact Or.inr ⟨rfl, (Option.some.inj hfed).symm⟩
    · exact Or.inl ⟨_, rfl, (Option.some.inj hfed).symm⟩

theorem Retains.feed?_lines
    (hgood : Retains session lines) {line : String} {fed : Pushed × Intake γ ω}
    (hfed : session.feed? setup line = some fed) :
    fed.2.lines = if fed.1.state = .awaiting then typedLines (lines ++ [line]) else [] := by
  rcases hgood.feed?_eq_some hfed with ⟨text, hlines, rfl⟩ | ⟨hlines, rfl⟩
  · rw [hlines]
    exact (Intake.push_lines setup.tools text session.vars session.intake).1
  · rw [hlines]
    exact (Intake.emptyLine_lines setup.tools session.vars session.intake).1

theorem Retains.feed?_isAccumulating
    (hgood : Retains session lines) {line : String} {fed : Pushed × Intake γ ω}
    (hfed : session.feed? setup line = some fed) :
    fed.2.isAccumulating = true ↔ fed.1.state = .awaiting := by
  have hne : typedLines (lines ++ [line]) ≠ [] := by simp [typedLines_eq_nil_iff]
  unfold Intake.isAccumulating
  rw [hgood.feed?_lines hfed]
  by_cases hawaiting : fed.1.state = .awaiting
  · simp [hawaiting, hne]
  · simp [hawaiting]

theorem Retains.withFed
    (hgood : Retains session lines) {line : String} {fed : Pushed × Intake γ ω}
    (hfed : session.feed? setup line = some fed)
    {streams : Streams} (huntapped : streams.isTapped = false) :
    Retains { session with intake := fed.2, streams := streams }
      (if fed.2.isAccumulating then lines ++ [line] else []) := by
  constructor
  · change fed.2.lines = _
    rw [hgood.feed?_lines hfed]
    by_cases hawaiting : fed.1.state = .awaiting
    · simp [hawaiting, (hgood.feed?_isAccumulating hfed).mpr hawaiting]
    · have hidle : fed.2.isAccumulating = false := by
        rw [Bool.eq_false_iff]
        exact fun hopen => hawaiting ((hgood.feed?_isAccumulating hfed).mp hopen)
      simp [hawaiting, hidle, typedLines]
  · exact huntapped

/-! ## What calls keep -/

theorem Retains.execute
    (hgood : Retains session lines) (setup : Setup γ ω η) (unit : CompiledUnit) :
    Retains (session.execute setup unit).2 lines := by
  constructor
  · rw [(execute_spec unit hgood.untapped).1]
    exact hgood.lines_eq
  · exact execute_isTapped setup unit hgood.untapped

theorem Retains.run (hgood : Retains session lines) (line : String) :
    Retains (session.run setup line).2
      (if (session.run setup line).2.intake.isAccumulating then lines ++ [line] else []) := by
  rcases run_cases setup session line with
    ⟨hfed, hrun⟩ | ⟨source, intake, ⟨hfed, hrun⟩ | ⟨e, hfed, hrun⟩ | ⟨unit, hfed, hrun⟩⟩
  · obtain ⟨rfl, _⟩ := hgood.feed?_eq_none hfed
    rw [hrun, hgood.isAccumulating_eq]
    exact hgood
  · rw [hrun]
    exact hgood.withFed hfed hgood.untapped
  · have huntapped : (session.streams.write .stderr
        (Utf8.encode (e.message ++ "\n"))).2.isTapped = false := by
      rw [Streams.write_isTapped]
      exact hgood.untapped
    rw [hrun]
    exact hgood.withFed hfed huntapped
  · have hkept := hgood.withFed hfed hgood.untapped
    have hidle : intake.isAccumulating = false := by
      rw [Bool.eq_false_iff]
      intro hopen
      cases (hgood.feed?_isAccumulating hfed).mp hopen
    rw [hidle] at hkept
    have hexecuted := hkept.execute setup unit
    rw [hrun, hexecuted.isAccumulating_eq]
    exact hexecuted

/-- Every call keeps the lines that were typed since the intake was idle. -/
theorem Retains.perform (hgood : Retains session lines) (call : Call) :
    let next := (call.perform setup session).2
    Retains next (if next.intake.isAccumulating then lines ++ call.lines else []) := by
  intro next
  cases call with
  | run line => exact hgood.run line
  | execute unit =>
    rw [Call.lines, List.append_nil]
    exact (hgood.execute setup unit).refresh
  | interrupt =>
    have hidle : Retains next [] := ⟨rfl, hgood.untapped⟩
    rw [hidle.isAccumulating_eq]
    exact hidle
  | assign vars env =>
    have hsame : Retains next lines := ⟨hgood.lines_eq, hgood.untapped⟩
    rw [Call.lines, List.append_nil]
    exact hsame.refresh
  | compileFile path text =>
    have hlines := (Intake.compileFile_lines setup.tools path text session.vars
      session.intake).1
    have hsame : Retains next lines := ⟨hlines.trans hgood.lines_eq, hgood.untapped⟩
    rw [Call.lines, List.append_nil]
    exact hsame.refresh

theorem Retains.after (hgood : Retains session lines) (calls : List Call) :
    Retains (session.after setup calls) (linesSinceIdle setup session lines calls) := by
  induction calls generalizing session lines with
  | nil => exact hgood
  | cons call rest ih => exact ih (hgood.perform call)

end Session
end LineShell
