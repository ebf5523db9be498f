import LineShell.Proofs.Intake.Transparency
import LineShell.Proofs.Session.Waiting
import LineShell.Proofs.Text.Utf8
import LineShell.Session.Drive

/-!
# No line of an input is lost but in an open literal

A drive gives the lines of an input to a session and, at the end of the input, an empty
line if some wait.  A line that is not blank ends up in a unit that runs, in a source
that is reported as rejected, or among the lines that wait.  The empty line settles all
that wait, unless it leaves their text inside a literal: then they still wait when
the drive is over, and nothing is said about them.
-/

namespace LineShell

open Cache History Output Text

namespace Intake

variable {γ ω : Type} {tools : Tools γ ω} {answers : Answers}

/-- What became of a source agrees with the source and with the compiler. -/
inductive Settles (answers : Answers) (source : String) : CompileState → Prop where
  | awaiting : Settles answers source .awaiting
  | ready {unit : CompiledUnit} :
      unit.source = source → Settles answers source (.ready unit)
  | rejected {e : CompileError} :
      answers source .single stdinName = .error e → Settles answers source (.rejected e)

/-- A text that an empty line does not settle: it ends with that line, what it is changed
to is incomplete for the compiler, and that is no text with an empty line at its end, or
it ends inside a literal. -/
structure Stuck (tools : Tools γ ω) (answers : Answers) (text : String) : Prop where
  blank : endsBlank text = true
  incomplete : ∃ e, answers (tools.transform text) .single stdinName = .error e ∧
    e.isIncomplete = true
  inside : endsBlank (tools.transform text) = true →
    Literal.endsInside (tools.transform text) = true

theorem compile_settles
    (hanswers : AnswersBy tools.compiler answers) (source : String) (ctx : Context)
    (intake : Intake γ ω) :
    Settles answers source (intake.compile tools source ctx).1 := by
  rcases compile_outcome hanswers source ctx intake with
    ⟨unit, hstate, hsource⟩ | ⟨e, hanswer, hstate | ⟨hstate, -, -⟩⟩
  · rw [hstate]
    exact .ready hsource
  · rw [hstate]
    exact .rejected hanswer
  · rw [hstate]
    exact .awaiting

theorem push_settles
    (hanswers : AnswersBy tools.compiler answers) (line : String) (ctx : Context)
    (intake : Intake γ ω) :
    Settles answers (tools.transform (String.join (intake.lines ++ [withLineEnd line])))
      (intake.push tools line ctx).1.state := by
  cases hneed : intake.needMore with
  | true =>
    rw [push_of_needMore hneed]
    exact .awaiting
  | false =>
    rw [push_of_not_needMore hneed]
    exact compile_settles hanswers _ ctx _

theorem emptyLine_settles
    (hanswers : AnswersBy tools.compiler answers) (ctx : Context) (intake : Intake γ ω) :
    Settles answers (tools.transform (String.join (intake.lines ++ ["\n"])))
      (intake.emptyLine tools ctx).1.state := by
  rw [emptyLine_eq]
  exact compile_settles hanswers _ ctx _

theorem stuck_of_emptyLine_awaiting
    (hanswers : AnswersBy tools.compiler answers) {ctx : Context} {intake : Intake γ ω}
    (hlines : ∀ line ∈ intake.lines, line.toList.getLast? = some '\n')
    (hawaiting : (intake.emptyLine tools ctx).1.state = .awaiting) :
    Stuck tools answers (String.join (intake.lines ++ ["\n"])) := by
  rw [emptyLine_eq] at hawaiting
  rcases compile_outcome hanswers _ ctx _ with
    ⟨unit, hstate, -⟩ | ⟨e, hanswer, hstate | ⟨-, hincomplete, hinside⟩⟩
  · cases hawaiting.symm.trans hstate
  · cases hawaiting.symm.trans hstate
  · exact ⟨endsBlank_join_append_newline hlines, ⟨e, hanswer, hincomplete⟩, hinside⟩

end Intake

namespace Session

/-! ## The lines of an input -/

/-- The lines of a text, each with its line end. -/
def cutChars : List Char → List (List Char)
  | [] => []
  | c :: rest =>
    if c = '\n' then [c] :: cutChars rest
    else match cutChars rest with
      | [] => [[c]]
      | line :: others => (c :: line) :: others

def linesOf (input : String) : List String :=
  (cutChars input.toList).map String.ofList

theorem cutLines_append
    {bytes : Bytes} (hbytes : ∀ b ∈ bytes, b ≠ 10) (hne : bytes ≠ []) (rest : Bytes) :
    cutLines (bytes ++ rest) =
      match cutLines rest with
      | [] => [bytes]
      | line :: others => (bytes ++ line) :: others := by
  induction bytes with
  | nil => exact absurd rfl hne
  | cons b more ih =>
    have hb : b ≠ 10 := hbytes b List.mem_cons_self
    cases more with
    | nil =>
      rw [List.singleton_append, cutLines, if_neg hb]
      rfl
    | cons c others =>
      have hmore := ih (fun d hd => hbytes d (List.mem_cons_of_mem b hd)) (by simp)
      rw [List.cons_append, cutLines, if_neg hb, hmore]
      cases cutLines rest <;> rfl

/-- Of all characters, only a line end has the byte of a line end. -/
theorem ne_of_mem_encodeChar
    {c : Char} (hc : c ≠ '\n') {b : UInt8} (hb : b ∈ String.utf8EncodeChar c) : b ≠ 10 := by
  rintro rfl
  exact hc (Utf8.encodeChar_of_mem (by decide) hb).1

theorem cutLines_encodeChars (text : List Char) :
    cutLines (Utf8.encodeChars text) = (cutChars text).map Utf8.encodeChars := by
  induction text with
  | nil => rfl
  | cons c rest ih =>
    have hcons : Utf8.encodeChars (c :: rest) =
        String.utf8EncodeChar c ++ Utf8.encodeChars rest := rfl
    rw [hcons]
    by_cases hc : c = '\n'
    · subst hc
      rw [show String.utf8EncodeChar '\n' = [10] from rfl, List.singleton_append, cutLines,
        if_pos rfl, ih, cutChars, if_pos rfl]
      rfl
    · rw [cutLines_append (fun b hb => ne_of_mem_encodeChar hc hb)
        (Utf8.encodeChar_ne_nil c), ih, cutChars, if_neg hc]
      cases cutChars rest with
      | nil => simp [Utf8.encodeChars]
      | cons line others => simp [Utf8.encodeChars]

theorem cutLines_encode (input : String) :
    cutLines (Utf8.encode input) = (linesOf input).map Utf8.encode := by
  rw [Utf8.encode, cutLines_encodeChars, linesOf, List.map_map]
  apply List.map_congr_left
  intro line _
  rw [Function.comp_apply, Utf8.encode, String.toList_ofList]

/-! ## Chapters -/

variable {γ ω η : Type} {setup : Setup γ ω η} {answers : Answers}

/-- Lines that came to an end together: their text ran as a unit, or it was reported as
rejected. -/
inductive Chapter where
  | ran (lines : List String) (unit : CompiledUnit)
  | rejected (lines : List String) (e : CompileError)

/-- How a session gets through lines, with some waiting at first and some at last: a
blank line is nothing, and any other one joins those that wait, which go on waiting or
end as a chapter. -/
inductive Chronicle (setup : Setup γ ω η) (answers : Answers) :
    Session γ ω η → List String → List String → List Chapter → Session γ ω η →
      List String → Prop where
  | done {session : Session γ ω η} {waiting : List String} :
      Chronicle setup answers session waiting [] [] session waiting
  | blank {session last : Session γ ω η} {line : String} {rest left : List String}
      {chapters : List Chapter} :
      (∀ c ∈ line.toList, isBlank c = true) →
      session.run setup line = (.ok false, session) →
      Chronicle setup answers session [] rest chapters last left →
      Chronicle setup answers session [] (line :: rest) chapters last left
  | waits {session last : Session γ ω η} {line : String} {waiting rest left : List String}
      {chapters : List Chapter} {intake : Intake γ ω} :
      session.run setup line = (.ok false, { session with intake := intake }) →
      Chronicle setup answers { session with intake := intake } (waiting ++ [line]) rest
        chapters last left →
      Chronicle setup answers session waiting (line :: rest) chapters last left
  | rejected {session last : Session γ ω η} {line : String}
      {waiting rest left : List String} {chapters : List Chapter} {intake : Intake γ ω}
      {e : CompileError} :
      answers (setup.tools.transform (typedText (waiting ++ [line]))) .single stdinName =
        .error e →
      session.run setup line =
        (.ok false, { session with intake := intake }.reportRejection e) →
      Chronicle setup answers ({ session with intake := intake }.reportRejection e) [] rest
        chapters last left →
      Chronicle setup answers session waiting (line :: rest)
        (.rejected (waiting ++ [line]) e :: chapters) last left
  | ran {session last : Session γ ω η} {line : String} {waiting rest left : List String}
      {chapters : List Chapter} {intake : Intake γ ω} {unit : CompiledUnit} :
      unit.source = setup.tools.transform (typedText (waiting ++ [line])) →
      session.run setup line = { session with intake := intake }.execute setup unit →
      Chronicle setup answers ({ session with intake := intake }.execute setup unit).2 []
        rest chapters last left →
      Chronicle setup answers session waiting (line :: rest)
        (.ran (waiting ++ [line]) unit :: chapters) last left

/-- Where a line ended up. -/
inductive Fate (setup : Setup γ ω η) (answers : Answers) (chapters : List Chapter)
    (left : List String) (line : String) : Prop where
  | blank : (∀ c ∈ line.toList, isBlank c = true) → Fate setup answers chapters left line
  | waits : line ∈ left → Fate setup answers chapters left line
  | ran {together : List String} {unit : CompiledUnit} :
      .ran together unit ∈ chapters → line ∈ together →
      unit.source = setup.tools.transform (typedText together) →
      Fate setup answers chapters left line
  | rejected {together : List String} {e : CompileError} :
      .rejected together e ∈ chapters → line ∈ together →
      answers (setup.tools.transform (typedText together)) .single stdinName = .error e →
      Fate setup answers chapters left line

theorem Fate.cons
    {chapters : List Chapter} {left : List String} {line : String}
    (hfate : Fate setup answers chapters left line) (chapter : Chapter) :
    Fate setup answers (chapter :: chapters) left line := by
  cases hfate with
  | blank hblank => exact .blank hblank
  | waits hleft => exact .waits hleft
  | ran hmem hline hsource => exact .ran (List.mem_cons_of_mem chapter hmem) hline hsource
  | rejected hmem hline hanswer =>
    exact .rejected (List.mem_cons_of_mem chapter hmem) hline hanswer

theorem Chronicle.fate
    {session last : Session γ ω η} {waiting lines left : List String}
    {chapters : List Chapter}
    (hchronicle : Chronicle setup answers session waiting lines chapters last left)
    {line : String} (hline : line ∈ waiting ++ lines) :
    Fate setup answers chapters left line := by
  induction hchronicle with
  | done =>
    rw [List.append_nil] at hline
    exact .waits hline
  | blank hblank _ _ ih =>
    rcases List.mem_cons.mp hline with rfl | hrest
    · exact .blank hblank
    · exact ih hrest
  | waits _ _ ih =>
    apply ih
    simpa using hline
  | rejected hanswer _ _ ih =>
    rw [← List.singleton_append, ← List.append_assoc] at hline
    rcases List.mem_append.mp hline with hnow | hrest
    · exact .rejected List.mem_cons_self hnow hanswer
    · exact (ih hrest).cons _
  | ran hsource _ _ ih =>
    rw [← List.singleton_append, ← List.append_assoc] at hline
    rcases List.mem_append.mp hline with hnow | hrest
    · exact .ran List.mem_cons_self hnow hsource
    · exact (ih hrest).cons _

/-! ## One line -/

/-- The history, if there is one, takes every record. -/
def Setup.JournalAccepts (setup : Setup γ ω η) : Prop :=
  ∀ journal, setup.journal = some journal →
    ∀ record history, (journal.append record history).1 = .ok ()

variable {session : Session γ ω η} {waiting : List String}

theorem isBlank_of_trim_eq_nil
    {text : List Char} (htext : trim text = []) : ∀ c ∈ text, isBlank c = true := by
  have hrest : text.dropWhile isBlank = [] := by
    by_contra hne
    rw [trim, trimEnd, trimStart, List.reverse_eq_nil_iff, List.dropWhile_eq_nil_iff] at htext
    have hhead := List.head_dropWhile_not isBlank hne
    have hblank := htext _ (List.mem_reverse.mpr (List.head_mem hne))
    rw [hhead] at hblank
    cases hblank
  exact List.dropWhile_eq_nil_iff.mp hrest

theorem mem_withoutLineEnd
    {text : List Char} {c : Char} (hc : c ∈ text) :
    c ∈ withoutLineEnd text ∨ c = '\n' ∨ c = '\r' := by
  have hdrop : ∀ (text : List Char) (last : Char), c ∈ text →
      c ∈ (if text.getLast? = some last then text.dropLast else text) ∨ c = last := by
    intro text last hmem
    split
    · rename_i hlast
      obtain ⟨front, rfl⟩ := List.getLast?_eq_some_iff.mp hlast
      simpa using hmem
    · exact Or.inl hmem
  unfold withoutLineEnd
  dsimp only
  rcases hdrop text '\n' hc with hfront | rfl
  · rcases hdrop _ '\r' hfront with hbody | rfl
    · exact Or.inl hbody
    · exact Or.inr (Or.inr rfl)
  · exact Or.inr (Or.inl rfl)

theorem isBlank_of_withoutLineEnd
    {text : List Char} (htext : trim (withoutLineEnd text) = []) :
    ∀ c ∈ text, isBlank c = true := by
  intro c hc
  rcases mem_withoutLineEnd hc with hbody | rfl | rfl
  · exact isBlank_of_trim_eq_nil htext c hbody
  · rfl
  · rfl

theorem Setup.JournalAccepts.answered_eq
    (hjournal : setup.JournalAccepts) (record : Record) (history : η) :
    answered setup record history = .ok () := by
  unfold answered
  cases hsome : setup.journal with
  | none => rfl
  | some journal => exact hjournal journal hsome record history

/-- A run whose record the history takes answers whether the unit asked for the end. -/
theorem execute_result
    (hjournal : setup.JournalAccepts) (huntapped : session.streams.isTapped = false)
    (unit : CompiledUnit) :
    (session.execute setup unit).1 =
      .ok (session.execute setup unit).2.status.exitRequested := by
  rw [execute_eq_complete unit huntapped, complete, conclude_answered,
    hjournal.answered_eq]

theorem Retains.feed?_settles
    (hanswers : Intake.AnswersBy setup.tools.compiler answers)
    (hgood : Retains session waiting) {line : String} {fed : Pushed × Intake γ ω}
    (hfed : session.feed? setup line = some fed) :
    Intake.Settles answers (setup.tools.transform (typedText (waiting ++ [line])))
      fed.1.state := by
  rcases hgood.feed?_eq_some hfed with ⟨text, hlines, rfl⟩ | ⟨hlines, rfl⟩
  · rw [typedText, hlines]
    exact Intake.push_settles hanswers text session.vars session.intake
  · rw [typedText, hlines]
    exact Intake.emptyLine_settles hanswers session.vars session.intake

/-- The lines that wait after a line. -/
def linesAfter (setup : Setup γ ω η) (session : Session γ ω η) (waiting : List String)
    (line : String) : List String :=
  if (session.run setup line).2.intake.isAccumulating then waiting ++ [line] else []

theorem Retains.linesAfter_eq
    (hgood : Retains session waiting) {line : String} {fed : Pushed × Intake γ ω}
    (hfed : session.feed? setup line = some fed) :
    linesAfter setup session waiting line =
      if fed.1.state = .awaiting then waiting ++ [line] else [] := by
  have hlines := hgood.feed?_lines hfed
  have hopen := hgood.feed?_isAccumulating hfed
  unfold linesAfter
  rcases run_cases setup session line with
    ⟨hnone, _⟩ | ⟨source, intake, ⟨htook, hrun⟩ | ⟨e, htook, hrun⟩ | ⟨unit, htook, hrun⟩⟩
  · cases hfed.symm.trans hnone
  · cases Option.some.inj (hfed.symm.trans htook)
    rw [hrun, if_pos rfl]
    exact if_pos (hopen.mpr rfl)
  · cases Option.some.inj (hfed.symm.trans htook)
    have hidle : intake.lines = [] := by simpa using hlines
    simp [hrun, reportRejection, Intake.isAccumulating, hidle]
  · cases Option.some.inj (hfed.symm.trans htook)
    have hidle : intake.lines = [] := by simpa using hlines
    have hready : Retains { session with intake := intake } [] := ⟨hidle, hgood.untapped⟩
    rw [hrun, (hready.execute setup unit).isAccumulating_eq]
    rfl

/-- A line is a step of the chronicle, and its answer tells whether a unit that ran asked
for the end. -/
theorem Retains.run_chronicle
    (hanswers : Intake.AnswersBy setup.tools.compiler answers)
    (hjournal : setup.JournalAccepts) (hgood : Retains session waiting) (line : String) :
    let next := (session.run setup line).2
    ∃ (ends : Bool) (now : List Chapter),
      (session.run setup line).1 = .ok ends ∧
      (ends = true → next.status.exitRequested = true ∧
        linesAfter setup session waiting line = []) ∧
      ∀ {rest left : List String} {later : List Chapter} {last : Session γ ω η},
        Chronicle setup answers next (linesAfter setup session waiting line) rest later last
          left →
        Chronicle setup answers session waiting (line :: rest) (now ++ later) last left := by
  intro next
  rcases run_cases setup session line with
    ⟨hfed, hrun⟩ | ⟨source, intake, ⟨hfed, hrun⟩ | ⟨e, hfed, hrun⟩ | ⟨unit, hfed, hrun⟩⟩
  · obtain ⟨rfl, hblank⟩ := hgood.feed?_eq_none hfed
    have hkept : linesAfter setup session [] line = [] := by
      rw [linesAfter, hrun, hgood.isAccumulating_eq]
      rfl
    refine ⟨false, [], by rw [hrun], by simp, ?_⟩
    intro rest left later last hrest
    simp only [next, hrun, hkept] at hrest
    exact .blank (isBlank_of_withoutLineEnd hblank) hrun hrest
  · have hkept := hgood.linesAfter_eq hfed
    rw [if_pos rfl] at hkept
    refine ⟨false, [], by rw [hrun], by simp, ?_⟩
    intro rest left later last hrest
    simp only [next, hrun, hkept] at hrest
    exact .waits hrun hrest
  · have hkept := hgood.linesAfter_eq hfed
    rw [if_neg (by simp)] at hkept
    have hsettles := hgood.feed?_settles hanswers hfed
    cases hsettles with
    | rejected hanswer =>
      refine ⟨false, [.rejected (waiting ++ [line]) e], by rw [hrun], by simp, ?_⟩
      intro rest left later last hrest
      simp only [next, hrun, hkept] at hrest
      exact .rejected hanswer hrun hrest
  · have hkept := hgood.linesAfter_eq hfed
    rw [if_neg (by simp)] at hkept
    have huntapped : { session with intake := intake }.streams.isTapped = false :=
      hgood.untapped
    have hresult := execute_result hjournal huntapped unit
    have hsettles := hgood.feed?_settles hanswers hfed
    cases hsettles with
    | ready hsource =>
      refine ⟨_, [.ran (waiting ++ [line]) unit], (congrArg Prod.fst hrun).trans hresult,
        ?_, ?_⟩
      · intro hends
        simp only [next, hrun]
        exact ⟨hends, hkept⟩
      · intro rest left later last hrest
        simp only [next, hrun, hkept] at hrest
        exact .ran hsource hrun hrest

/-! ## The whole drive -/

/-- An empty line after which lines still wait leaves their text stuck. -/
theorem Retains.stuck_of_flush
    (hanswers : Intake.AnswersBy setup.tools.compiler answers)
    (hgood : Retains session waiting) (hwaiting : waiting ≠ [])
    (hopen : linesAfter setup session waiting "" ≠ []) :
    Intake.Stuck setup.tools answers
      (typedText (linesAfter setup session waiting "")) := by
  have hfed : session.feed? setup "" =
      some (session.intake.emptyLine setup.tools session.vars) := by
    rw [feed?, hgood.isAccumulating_eq]
    cases waiting with
    | nil => exact absurd rfl hwaiting
    | cons first rest => rfl
  have hlines : typedLines (waiting ++ [""]) = session.intake.lines ++ ["\n"] := by
    rw [typedLines_append_of_ne_nil hwaiting, hgood.lines_eq]
    rfl
  rw [hgood.linesAfter_eq hfed] at hopen ⊢
  by_cases hawaiting : (session.intake.emptyLine setup.tools session.vars).1.state = .awaiting
  · rw [if_pos hawaiting, typedText, hlines]
    refine Intake.stuck_of_emptyLine_awaiting hanswers ?_ hawaiting
    rw [hgood.lines_eq]
    exact fun _ hline => typedLines_getLast? hline
  · exact absurd (if_neg hawaiting) hopen

/-- How a drive ends: it always answers the return code of the session it leaves; it
stops before the end of the input only after a unit that asked for it; and lines that
wait at last were stuck. -/
theorem Retains.driveLines_chronicle
    (hanswers : Intake.AnswersBy setup.tools.compiler answers)
    (hjournal : setup.JournalAccepts) (hgood : Retains session waiting)
    (lines prompts : List String) :
    let ended := driveLines setup session prompts (lines.map Utf8.encode)
    let last := ended.2.session
    ∃ (shown closing : List String) (chapters : List Chapter) (left : List String),
      ended.1 = .ok last.finalCode ∧
      ended.2.prompts = shown ++ prompts ∧
      (closing = [] ∨ closing = [""]) ∧
      Chronicle setup answers session waiting (lines.take shown.length ++ closing) chapters
        last left ∧
      Retains last left ∧
      (shown.length ≤ lines.length → last.status.exitRequested = true) ∧
      (left ≠ [] → Intake.Stuck setup.tools answers (typedText left)) := by
  induction lines generalizing session waiting prompts with
  | nil =>
    intro ended last
    by_cases hopen : session.intake.isAccumulating = true
    · obtain ⟨ends, now, hresult, -, hstep⟩ := hgood.run_chronicle hanswers hjournal ""
      have hended : ended = (.ok (session.run setup "").2.finalCode,
          ⟨(session.run setup "").2, session.prompt :: prompts⟩) := by
        simp only [ended, List.map_nil, driveLines, if_pos hopen, hresult, Except.map]
      have hwaiting : waiting ≠ [] := by
        rw [hgood.isAccumulating_eq] at hopen
        simpa using hopen
      have hlast : last = (session.run setup "").2 :=
        congrArg (fun ended => ended.2.session) hended
      refine ⟨[session.prompt], [""], now ++ [], linesAfter setup session waiting "", ?_⟩
      rw [hlast, hended]
      refine ⟨rfl, rfl, Or.inr rfl, hstep .done, hgood.run "", by simp, ?_⟩
      exact hgood.stuck_of_flush hanswers hwaiting
    · have hended : ended = (.ok session.finalCode, ⟨session, session.prompt :: prompts⟩) := by
        simp only [ended, List.map_nil, driveLines, if_neg hopen]
      have hwaiting : waiting = [] := by
        rw [hgood.isAccumulating_eq] at hopen
        simpa using hopen
      subst hwaiting
      have hlast : last = session := congrArg (fun ended => ended.2.session) hended
      refine ⟨[session.prompt], [], [], [], ?_⟩
      rw [hlast, hended]
      exact ⟨rfl, rfl, Or.inl rfl, .done, hgood, by simp, by simp⟩
  | cons line rest ih =>
    intro ended last
    obtain ⟨ends, now, hresult, hends, hstep⟩ := hgood.run_chronicle hanswers hjournal line
    have hrun : session.run setup line = (.ok ends, (session.run setup line).2) :=
      Prod.ext hresult rfl
    have hnext : Retains (session.run setup line).2 (linesAfter setup session waiting line) :=
      hgood.run line
    cases ends with
    | true =>
      have hended : ended = (.ok (session.run setup line).2.finalCode,
          ⟨(session.run setup line).2, session.prompt :: prompts⟩) := by
        simp only [ended, List.map_cons, driveLines, Utf8.decode?_encode]
        rw [hrun]
      obtain ⟨hexit, hkept⟩ := hends rfl
      rw [hkept] at hstep hnext
      have hlast : last = (session.run setup line).2 :=
        congrArg (fun ended => ended.2.session) hended
      refine ⟨[session.prompt], [], now ++ [], [], ?_⟩
      rw [hlast, hended]
      exact ⟨rfl, rfl, Or.inl rfl, hstep .done, hnext, fun _ => hexit, by simp⟩
    | false =>
      have hended : ended = driveLines setup (session.run setup line).2
          (session.prompt :: prompts) (rest.map Utf8.encode) := by
        simp only [ended, List.map_cons, driveLines, Utf8.decode?_encode]
        rw [hrun]
      obtain ⟨shown, closing, chapters, left, hcode, hprompts, hclosing, hchronicle, hlast,
        hexit, hstuck⟩ := ih hnext (session.prompt :: prompts)
      refine ⟨shown ++ [session.prompt], closing, now ++ chapters, left, ?_⟩
      simp only [last, hended]
      refine ⟨hcode, by simp [hprompts], hclosing, ?_, hlast, ?_, hstuck⟩
      · have htake : (line :: rest).take (shown ++ [session.prompt]).length =
            line :: rest.take shown.length := by
          simp
        rw [htake]
        exact hstep hchronicle
      · intro hlength
        exact hexit (by simpa using hlength)

/-- An input that is given to a session of the line language, in any reachable state and
over any cache, with a history that takes every record.  The drive answers, and stops
before the end of the input only after a unit that asked for it.  Each line that
waited or was read, and is not blank, ended up in a unit that ran or in a source
that was reported as rejected, or it still waits.  Lines wait at last only if their text,
with the empty line at the end of the input, is incomplete for the compiler and, if
sources are not changed, ends inside a literal for the look ahead. -/
theorem drive_settles_lines_outside_literals
    {setup : Setup Unit ω η} (hcompiler : setup.tools.compiler = CommandLine.compiler)
    (hjournal : setup.JournalAccepts) (world : ω) (history : η) (stdout stderr : Sink)
    (env : Environment) (calls : List Call) (input : String) :
    let first := start () world history (.ofSinks stdout stderr) env
    let session := first.after setup calls
    let waiting := linesSinceIdle setup first [] calls
    let ended := session.drive setup (Utf8.encode input)
    let last := ended.2.session
    let read := (linesOf input).take ended.2.prompts.length
    ended.1 = .ok last.finalCode ∧
      (ended.2.prompts.length ≤ (linesOf input).length →
        last.status.exitRequested = true) ∧
      ∃ (closing : List String) (chapters : List Chapter) (left : List String),
        (closing = [] ∨ closing = [""]) ∧
        Chronicle setup Language.compile session waiting (read ++ closing) chapters last
          left ∧
        last.intake.lines = typedLines left ∧
        (∀ line ∈ waiting ++ read, Fate setup Language.compile chapters left line) ∧
        (left ≠ [] → Intake.Stuck setup.tools Language.compile (typedText left)) := by
  intro first session waiting ended last read
  have hanswers : Intake.AnswersBy setup.tools.compiler Language.compile := by
    rw [hcompiler]
    exact Intake.compiler_answersBy
  have hgood : Retains session waiting :=
    (retains_start () world history stdout stderr env).after calls
  have hended : ended = driveLines setup session [] ((linesOf input).map Utf8.encode) := by
    rw [← cutLines_encode]
    rfl
  obtain ⟨shown, closing, chapters, left, hcode, hprompts, hclosing, hchronicle, hlast, hexit,
    hstuck⟩ := hgood.driveLines_chronicle hanswers hjournal (linesOf input) []
  rw [← hended] at hcode hprompts hchronicle hlast hexit
  rw [List.append_nil] at hprompts
  rw [← hprompts] at hchronicle hexit
  refine ⟨hcode, hexit, closing, chapters, left, hclosing, hchronicle, hlast.lines_eq, ?_,
    hstuck⟩
  intro line hline
  apply hchronicle.fate
  rw [← List.append_assoc]
  exact List.mem_append_left closing hline

/-- A repetition that the end of the input leaves open runs. -/
theorem drive_settles_open_repetition :
    let settings : Settings := ⟨.utf8, .replace, ⟨"", ""⟩, ⟨"", ""⟩, .all⟩
    let setup := CommandLine.setup Host.ofFiles settings "/cache" none
    let sink := Sink.unlimited settings.sinkKind
    let first := start () ⟨.empty, [], 0⟩ ⟨none, none⟩ (.ofSinks sink sink) .empty
    let session := first.after setup [.run "repeat 2:\n"]
    let last := (session.drive setup (Utf8.encode "  echo x")).2.session
    setup.JournalAccepts ∧
      last.streams.stdout.written = Utf8.encode "x\nx\n" ∧
      ∃ (closing : List String) (chapters : List Chapter),
        Chronicle setup Language.compile session ["repeat 2:\n"] (["  echo x"] ++ closing)
          chapters last [] ∧
        ∀ line ∈ ["repeat 2:\n"] ++ ["  echo x"], Fate setup Language.compile chapters [] line := by
  intro settings setup sink first session last
  have hjournal : setup.JournalAccepts := by
    intro journal hsome
    cases hsome
  have hcompiler : setup.tools.compiler = CommandLine.compiler := rfl
  have hwaiting : linesSinceIdle setup first [] [.run "repeat 2:\n"] = ["repeat 2:\n"] := by
    decide +kernel +zetaReduce
  have hread : (linesOf "  echo x").take
      (session.drive setup (Utf8.encode "  echo x")).2.prompts.length = ["  echo x"] := by
    decide +kernel +zetaReduce
  have hidle : last.intake.lines = [] := by decide +kernel +zetaReduce
  have hshown : last.streams.stdout.written = Utf8.encode "x\nx\n" := by
    decide +kernel +zetaReduce
  obtain ⟨-, -, closing, chapters, left, -, hchronicle, hlines, hfate, -⟩ :=
    drive_settles_lines_outside_literals hcompiler hjournal ⟨.empty, [], 0⟩ ⟨none, none⟩ sink
      sink .empty [.run "repeat 2:\n"] "  echo x"
  -- The names of the statement are unfolded, so that nothing of the drive is run again.
  simp only [last, session, first] at hwaiting hread hidle hshown ⊢
  rw [hwaiting, hread] at hchronicle hfate
  rw [hidle] at hlines
  have hleft : left = [] := typedLines_eq_nil_iff.mp hlines.symm
  rw [hleft] at hchronicle hfate
  exact ⟨hjournal, hshown, closing, chapters, hchronicle, hfate⟩

/-- A line that opens a literal still waits after the end of its input; nothing has run and
nothing was reported. -/
theorem drive_leaves_open_literal :
    let settings : Settings := ⟨.utf8, .replace, ⟨"", ""⟩, ⟨"", ""⟩, .all⟩
    let setup := CommandLine.setup Host.ofFiles settings "/cache" none
    let first := CommandLine.newSession settings .empty ⟨.empty, [], 0⟩ ⟨none, none⟩
    let ended := first.drive setup (Utf8.encode "echo 'a\n")
    let last := ended.2.session
    ended.1 = .ok successCode ∧
      (linesOf "echo 'a\n").length < ended.2.prompts.length ∧
      last.intake.lines = ["echo 'a\n", "\n"] ∧
      last.log.isEmpty = true ∧
      last.streams.stderr.written = [] := by
  decide +kernel +zetaReduce

end Session
end LineShell
