import LineShell.Intake
import Mathlib.Data.List.DropRight
import Mathlib.Tactic

/-!
# The lines that wait follow the conversation

An intake is talked to by four kinds of call.  Two pieces of its state change on
many paths: the lines that wait, and whether the next line only joins them.  The
invariant below ties both to the transcript of the calls and their replies: the
lines that wait are those that were taken in since a call last settled the
input, and more are needed exactly while some wait.

The last section says when a compiler and a cache are asked at all.  Asking shows
in what a call does, so a call that does not ask works alike with every other
compiler and cache, and one that asks for a source works alike with all that
answer alike for that source.
-/

namespace LineShell
namespace Intake

variable {γ ω : Type}

/-! ## Calls and their transcript -/

/-- A call on an intake. -/
inductive Call where
  | push (line : String) (ctx : Context)
  | emptyLine (ctx : Context)
  | reset
  | compileFile (path text : String) (ctx : Context)

inductive Reply where
  | pushed (pushed : Pushed)
  | script (result : Except CompileError CompiledUnit)
  | done

def Call.perform (tools : Tools γ ω) (intake : Intake γ ω) : Call → Reply × Intake γ ω
  | .push line ctx =>
    let (pushed, intake) := intake.push tools line ctx
    (.pushed pushed, intake)
  | .emptyLine ctx =>
    let (pushed, intake) := intake.emptyLine tools ctx
    (.pushed pushed, intake)
  | .reset => (.done, intake.reset)
  | .compileFile path text ctx =>
    let (result, intake) := intake.compileFile tools path text ctx
    (.script result, intake)

def Call.lines : Call → List String
  | .push line _ => [withLineEnd line]
  | .emptyLine _ => ["\n"]
  | .reset | .compileFile .. => []

/-- Whether a call with its reply settled the input: it was a reset, or its line
made the lines that wait a unit or led to their rejection. -/
def settled : Call × Reply → Bool
  | (.reset, _) => true
  | (_, .pushed pushed) => pushed.state ≠ .awaiting
  | _ => false

/-- The lines that were taken in since the input was last settled. -/
def linesSinceSettled (transcript : List (Call × Reply)) : List String :=
  (transcript.rtakeWhile fun exchange => !settled exchange).flatMap
    fun exchange => exchange.1.lines

/-- An intake with the calls that were made on it and their replies. -/
structure Conversation (γ ω : Type) where
  intake : Intake γ ω
  transcript : List (Call × Reply)

namespace Conversation

def start (service : γ) (world : ω) : Conversation γ ω :=
  ⟨.idle service world, []⟩

def say (tools : Tools γ ω) (talk : Conversation γ ω) (call : Call) :
    Conversation γ ω :=
  let (reply, intake) := call.perform tools talk.intake
  ⟨intake, talk.transcript ++ [(call, reply)]⟩

def run (tools : Tools γ ω) (talk : Conversation γ ω) (calls : List Call) :
    Conversation γ ω :=
  calls.foldl (say tools) talk

end Conversation

theorem linesSinceSettled_append_of_settled
    {transcript : List (Call × Reply)} {exchange : Call × Reply}
    (hsettled : settled exchange = true) :
    linesSinceSettled (transcript ++ [exchange]) = [] := by
  unfold linesSinceSettled
  rw [List.rtakeWhile_concat_neg _ _ _ (by simp [hsettled])]
  rfl

theorem linesSinceSettled_append_of_not_settled
    {transcript : List (Call × Reply)} {exchange : Call × Reply}
    (hopen : settled exchange = false) :
    linesSinceSettled (transcript ++ [exchange]) =
      linesSinceSettled transcript ++ exchange.1.lines := by
  unfold linesSinceSettled
  rw [List.rtakeWhile_concat_pos _ _ _ (by simp [hopen])]
  simp

/-! ## What an attempt leaves -/

/-- An attempt either settles the input, and then no line waits, or keeps the
lines and asks for more.  It asks for more after an ending empty line only inside
a literal. -/
structure Attempted (lines : List String) (source : String) (state : CompileState)
    (after : Intake γ ω) : Prop where
  lines_eq : after.lines = if state = .awaiting then lines else []
  needMore_iff : after.needMore = true ↔ state = .awaiting
  inside : state = .awaiting → endsBlank source = true → Literal.endsInside source = true

theorem attempted_reset
    {lines : List String} {source : String} {state : CompileState}
    (intake : Intake γ ω) (hstate : state ≠ .awaiting) :
    Attempted lines source state intake.reset := by
  constructor
  · simp [reset, hstate]
  · simp [reset, hstate]
  · intro hawaiting
    exact absurd hawaiting hstate

theorem compileFresh_attempted
    (tools : Tools γ ω) (source : String) (ctx : Context) (intake : Intake γ ω) :
    Attempted intake.lines source (intake.compileFresh tools source ctx).1
      (intake.compileFresh tools source ctx).2 := by
  unfold compileFresh
  cases hresult : (tools.compiler.compile source .single stdinName ctx intake.service).1 with
  | ok unit =>
    simp only [hresult]
    exact attempted_reset _ (by simp)
  | error e =>
    simp only [hresult]
    by_cases hincomplete : e.isIncomplete = true
    · by_cases hended : (endsBlank source && !Literal.endsInside source) = true
      · simp only [if_pos hincomplete, if_pos hended]
        exact attempted_reset _ (by simp)
      · simp only [if_pos hincomplete, if_neg hended]
        constructor
        · simp
        · simp
        · intro _ hblank
          simpa [hblank] using hended
    · simp only [if_neg hincomplete]
      exact attempted_reset _ (by simp)

theorem compile_attempted
    (tools : Tools γ ω) (source : String) (ctx : Context) (intake : Intake γ ω) :
    Attempted intake.lines source (intake.compile tools source ctx).1
      (intake.compile tools source ctx).2 := by
  unfold compile
  cases hcached : intake.cached? tools source with
  | some unit => exact attempted_reset _ (by simp)
  | none => exact compileFresh_attempted tools source ctx intake

/-- A line that joins lines of which more are needed changes nothing else. -/
theorem push_of_needMore
    {tools : Tools γ ω} {line : String} {ctx : Context} {intake : Intake γ ω}
    (hneed : intake.needMore = true) :
    intake.push tools line ctx =
      (⟨String.join (intake.lines ++ [withLineEnd line]), .awaiting⟩,
        { intake with lines := intake.lines ++ [withLineEnd line] }) := by
  simp [push, hneed, text]

theorem push_of_not_needMore
    {tools : Tools γ ω} {line : String} {ctx : Context} {intake : Intake γ ω}
    (hneed : intake.needMore = false) :
    let source := tools.transform (String.join (intake.lines ++ [withLineEnd line]))
    let next := compile tools source ctx
      { intake with lines := intake.lines ++ [withLineEnd line] }
    intake.push tools line ctx = (⟨source, next.1⟩, next.2) := by
  simp [push, hneed, text]

theorem emptyLine_eq
    (tools : Tools γ ω) (ctx : Context) (intake : Intake γ ω) :
    let source := tools.transform (String.join (intake.lines ++ ["\n"]))
    let next := compile tools source ctx
      { intake with lines := intake.lines ++ ["\n"], needMore := false }
    intake.emptyLine tools ctx = (⟨source, next.1⟩, next.2) := by
  simp [emptyLine, push, text, withLineEnd]

theorem push_lines
    (tools : Tools γ ω) (line : String) (ctx : Context) (intake : Intake γ ω) :
    (intake.push tools line ctx).2.lines =
        (if (intake.push tools line ctx).1.state = .awaiting then
          intake.lines ++ [withLineEnd line] else []) ∧
      ((intake.push tools line ctx).2.needMore = true ↔
        (intake.push tools line ctx).1.state = .awaiting) := by
  cases hneed : intake.needMore with
  | true => simp [push_of_needMore hneed, hneed]
  | false =>
    rw [push_of_not_needMore hneed]
    have hattempt := compile_attempted tools
      (tools.transform (String.join (intake.lines ++ [withLineEnd line]))) ctx
      { intake with lines := intake.lines ++ [withLineEnd line] }
    exact ⟨hattempt.lines_eq, hattempt.needMore_iff⟩

/-! ## The invariant along a conversation -/

theorem emptyLine_lines
    (tools : Tools γ ω) (ctx : Context) (intake : Intake γ ω) :
    (intake.emptyLine tools ctx).2.lines =
        (if (intake.emptyLine tools ctx).1.state = .awaiting then
          intake.lines ++ ["\n"] else []) ∧
      ((intake.emptyLine tools ctx).2.needMore = true ↔
        (intake.emptyLine tools ctx).1.state = .awaiting) := by
  rw [emptyLine_eq]
  have hattempt := compile_attempted tools
    (tools.transform (String.join (intake.lines ++ ["\n"]))) ctx
    { intake with lines := intake.lines ++ ["\n"], needMore := false }
  exact ⟨hattempt.lines_eq, hattempt.needMore_iff⟩

theorem withLineEnd_getLast? (line : String) :
    (withLineEnd line).toList.getLast? = some '\n' := by
  unfold withLineEnd
  by_cases hend : line.toList.getLast? = some '\n'
  · simp [hend]
  · simp [hend]

theorem Call.lines_getLast?
    {call : Call} {line : String} (hline : line ∈ call.lines) :
    line.toList.getLast? = some '\n' := by
  cases call with
  | push text ctx =>
    have heq : line = withLineEnd text := by simpa [Call.lines] using hline
    rw [heq]
    exact withLineEnd_getLast? text
  | emptyLine ctx =>
    have heq : line = "\n" := by simpa [Call.lines] using hline
    rw [heq]
    rfl
  | reset => simp [Call.lines] at hline
  | compileFile path text ctx => simp [Call.lines] at hline

theorem compileFile_lines
    (tools : Tools γ ω) (path text : String) (ctx : Context) (intake : Intake γ ω) :
    (intake.compileFile tools path text ctx).2.lines = intake.lines ∧
      (intake.compileFile tools path text ctx).2.needMore = intake.needMore := by
  unfold compileFile
  dsimp only
  split
  · exact ⟨rfl, rfl⟩
  · split
    · exact ⟨rfl, rfl⟩
    · exact ⟨rfl, rfl⟩

/-- A call that settles the input leaves no line; any other one adds its lines. -/
theorem Call.perform_lines
    (tools : Tools γ ω) (intake : Intake γ ω) (call : Call) :
    (call.perform tools intake).2.lines =
      if settled (call, (call.perform tools intake).1) then []
      else intake.lines ++ call.lines := by
  cases call with
  | push line ctx =>
    have hlines := (push_lines tools line ctx intake).1
    by_cases hstate : (intake.push tools line ctx).1.state = .awaiting
    · simpa [Call.perform, settled, hstate, Call.lines] using hlines
    · simpa [Call.perform, settled, hstate, Call.lines] using hlines
  | emptyLine ctx =>
    have hlines := (emptyLine_lines tools ctx intake).1
    by_cases hstate : (intake.emptyLine tools ctx).1.state = .awaiting
    · simpa [Call.perform, settled, hstate, Call.lines] using hlines
    · simpa [Call.perform, settled, hstate, Call.lines] using hlines
  | reset => simp [Call.perform, settled, Intake.reset]
  | compileFile path text ctx =>
    have hlines := (compileFile_lines tools path text ctx intake).1
    simpa [Call.perform, settled, Call.lines] using hlines

/-- A line leaves lines that wait exactly when its reply asks for more. -/
theorem Call.perform_lines_ne_nil_iff
    {tools : Tools γ ω} {intake : Intake γ ω} {call : Call} {pushed : Pushed}
    (hreply : (call.perform tools intake).1 = .pushed pushed) :
    (call.perform tools intake).2.lines ≠ [] ↔ pushed.state = .awaiting := by
  rw [Call.perform_lines, hreply]
  cases call with
  | push line ctx => by_cases hstate : pushed.state = .awaiting <;>
      simp [settled, hstate, Call.lines]
  | emptyLine ctx => by_cases hstate : pushed.state = .awaiting <;>
      simp [settled, hstate, Call.lines]
  | reset => cases hreply
  | compileFile path text ctx => cases hreply

theorem Call.perform_needMore
    {tools : Tools γ ω} {intake : Intake γ ω}
    (hbefore : intake.needMore = true ↔ intake.lines ≠ []) (call : Call) :
    (call.perform tools intake).2.needMore = true ↔
      (call.perform tools intake).2.lines ≠ [] := by
  cases call with
  | push line ctx =>
    have hneed := (push_lines tools line ctx intake).2
    have hlines := @Call.perform_lines_ne_nil_iff _ _ tools intake (.push line ctx) _ rfl
    exact hneed.trans hlines.symm
  | emptyLine ctx =>
    have hneed := (emptyLine_lines tools ctx intake).2
    have hlines := @Call.perform_lines_ne_nil_iff _ _ tools intake (.emptyLine ctx) _ rfl
    exact hneed.trans hlines.symm
  | reset => simp [Call.perform, Intake.reset]
  | compileFile path text ctx =>
    have hsame := compileFile_lines tools path text ctx intake
    simpa [Call.perform, hsame.1, hsame.2] using hbefore

namespace Conversation

/-- The lines that wait are those of the transcript, and more are needed exactly
while some wait. -/
structure Buffered (talk : Conversation γ ω) : Prop where
  lines_eq : talk.intake.lines = linesSinceSettled talk.transcript
  needMore_iff : talk.intake.needMore = true ↔ talk.intake.lines ≠ []

theorem buffered_start (service : γ) (world : ω) :
    (start service world).Buffered := by
  constructor
  · rfl
  · simp [start, idle]

theorem Buffered.say
    {tools : Tools γ ω} {talk : Conversation γ ω} (hgood : talk.Buffered)
    (call : Call) : (talk.say tools call).Buffered := by
  constructor
  · change (call.perform tools talk.intake).2.lines = linesSinceSettled
      (talk.transcript ++ [(call, (call.perform tools talk.intake).1)])
    rw [Call.perform_lines]
    cases hsettled : settled (call, (call.perform tools talk.intake).1) with
    | true => simp [linesSinceSettled_append_of_settled hsettled]
    | false =>
      rw [linesSinceSettled_append_of_not_settled hsettled, ← hgood.lines_eq]
      simp
  · exact Call.perform_needMore hgood.needMore_iff call

theorem Buffered.run
    {tools : Tools γ ω} {talk : Conversation γ ω} (hgood : talk.Buffered)
    (calls : List Call) : (talk.run tools calls).Buffered := by
  induction calls generalizing talk with
  | nil => exact hgood
  | cons call rest ih => exact ih (hgood.say call)

theorem Buffered.getLast?_of_mem
    {talk : Conversation γ ω} (hgood : talk.Buffered) {line : String}
    (hline : line ∈ talk.intake.lines) : line.toList.getLast? = some '\n' := by
  rw [hgood.lines_eq] at hline
  obtain ⟨exchange, _, hmem⟩ := List.mem_flatMap.mp hline
  exact Call.lines_getLast? hmem

end Conversation

/-! ## When the compiler and the cache are asked -/

/-- The source that a line makes the compiler and the cache be asked for: the
changed text of the lines that wait with the new one.  A line that joins others is
no reason to ask. -/
def Call.asked? (tools : Tools γ ω) (intake : Intake γ ω) : Call → Option String
  | .push line _ =>
    if intake.lines.isEmpty then
      some (tools.transform (String.join (intake.lines ++ [withLineEnd line])))
    else none
  | .emptyLine _ => some (tools.transform (String.join (intake.lines ++ ["\n"])))
  | .reset | .compileFile .. => none

/-- What becomes of a unit that was compiled from a typed source: it is kept where
the cache is used for typed input. -/
def offer (tools : Tools γ ω) (source : String) (unit : CompiledUnit)
    (intake : Intake γ ω) : Intake γ ω :=
  if tools.cache.policy.allows .single then
    intake.keep tools source unit (.interactive tools.compiler.fingerprint)
  else intake

/-- Two compilers with their caches answer alike for one typed source. -/
structure AgreeOn (source : String) (first second : Tools γ ω) : Prop where
  compile_eq : ∀ ctx service,
    first.compiler.compile source .single stdinName ctx service =
      second.compiler.compile source .single stdinName ctx service
  cached_eq : ∀ intake : Intake γ ω,
    intake.cached? first source = intake.cached? second source
  offer_eq : ∀ unit (intake : Intake γ ω),
    intake.offer first source unit = intake.offer second source unit

theorem compileFresh_eq
    (tools : Tools γ ω) (source : String) (ctx : Context) (intake : Intake γ ω) :
    intake.compileFresh tools source ctx =
      let answer := tools.compiler.compile source .single stdinName ctx intake.service
      let intake := { intake with service := answer.2 }
      match answer.1 with
      | .ok unit => (.ready unit, (intake.offer tools source unit).reset)
      | .error e =>
        if e.isIncomplete then
          if endsBlank source && !Literal.endsInside source then
            (.rejected e, intake.reset)
          else (.awaiting, { intake with needMore := true })
        else (.rejected e, intake.reset) :=
  rfl

theorem AgreeOn.compile
    {source : String} {first second : Tools γ ω} (hagree : AgreeOn source first second)
    (ctx : Context) (intake : Intake γ ω) :
    intake.compile first source ctx = intake.compile second source ctx := by
  unfold Intake.compile
  rw [hagree.cached_eq, compileFresh_eq, compileFresh_eq, hagree.compile_eq]
  simp only [hagree.offer_eq]

/-- What a line does depends on compiler and cache only through their answers for
the source that they are asked for. -/
theorem Call.perform_eq_of_agreeOn
    {tools other : Tools γ ω} {intake : Intake γ ω} {call : Call}
    (hneed : intake.needMore = true ↔ intake.lines ≠ [])
    (hline : ∀ path text ctx, call ≠ .compileFile path text ctx)
    (htransform : other.transform = tools.transform)
    (hagree : ∀ source, call.asked? tools intake = some source →
      AgreeOn source other tools) :
    call.perform other intake = call.perform tools intake := by
  cases call with
  | push line ctx =>
    cases hwaiting : intake.needMore with
    | true =>
      simp only [Call.perform, push_of_needMore hwaiting]
    | false =>
      have hempty : intake.lines = [] := by simpa [hwaiting] using hneed
      have hsource := hagree _ (by simp only [Call.asked?, hempty]; rfl)
      simp only [Call.perform, push_of_not_needMore hwaiting, htransform, hempty,
        hsource.compile]
  | emptyLine ctx =>
    have hsource := hagree _ rfl
    simp only [Call.perform, emptyLine_eq, htransform, hsource.compile]
  | reset => rfl
  | compileFile path text ctx => exact absurd rfl (hline path text ctx)

theorem Call.perform_untouched
    {tools : Tools γ ω} {intake : Intake γ ω} {call : Call}
    (hneed : intake.needMore = true ↔ intake.lines ≠ [])
    (hline : ∀ path text ctx, call ≠ .compileFile path text ctx)
    (hasked : call.asked? tools intake = none) :
    (call.perform tools intake).2.service = intake.service ∧
      (call.perform tools intake).2.world = intake.world := by
  cases call with
  | push line ctx =>
    have hlines : intake.lines ≠ [] := by
      intro hempty
      simp [Call.asked?, hempty] at hasked
    simp [Call.perform, push_of_needMore (hneed.mpr hlines)]
  | emptyLine ctx => simp [Call.asked?] at hasked
  | reset => exact ⟨rfl, rfl⟩
  | compileFile path text ctx => exact absurd rfl (hline path text ctx)

/-! ## An empty line and open literals -/

theorem endsBlank_of_reverse
    {source : String} {before : List Char}
    (hsource : source.toList = before ++ ['\n'])
    (hbefore : before = [] ∨ before.getLast? = some '\n') :
    endsBlank source = true := by
  unfold endsBlank
  rw [hsource, List.reverse_append]
  cases hreverse : before.reverse with
  | nil => rfl
  | cons c rest =>
    have hlast : before.getLast? = some c := by
      rw [← List.head?_reverse, hreverse]
      rfl
    have hne : before ≠ [] := by
      intro hnil
      simp [hnil] at hreverse
    have hc : c = '\n' := by simpa [hne, hlast] using hbefore
    subst hc
    rfl

/-- Lines that end as lines do, with an empty one after them, end with an empty
line. -/
theorem endsBlank_join_append_newline
    {lines : List String}
    (hlines : ∀ line ∈ lines, line.toList.getLast? = some '\n') :
    endsBlank (String.join (lines ++ ["\n"])) = true := by
  have hsplit : (String.join (lines ++ ["\n"])).toList =
      (String.join lines).toList ++ ['\n'] := by
    simp [String.join_append]
  apply endsBlank_of_reverse hsplit
  induction lines using List.reverseRecOn with
  | nil => exact Or.inl (by simp)
  | append_singleton front line _ =>
    right
    have hline := hlines line (by simp)
    rw [String.join_append]
    simp [List.getLast?_append, hline]

/-- An empty line that does not settle the input stands inside a literal. -/
theorem endsInside_of_emptyLine_awaiting
    {tools : Tools γ ω} {intake : Intake γ ω} {ctx : Context}
    (htransform : tools.transform = id)
    (hlines : ∀ line ∈ intake.lines, line.toList.getLast? = some '\n')
    (hawaiting : (intake.emptyLine tools ctx).1.state = .awaiting) :
    Literal.endsInside (intake.emptyLine tools ctx).2.text = true := by
  have hafter := (emptyLine_lines tools ctx intake).1
  rw [if_pos hawaiting] at hafter
  rw [text, hafter]
  rw [emptyLine_eq, htransform] at hawaiting
  exact (compile_attempted tools _ ctx _).inside hawaiting
    (endsBlank_join_append_newline hlines)

/-! ## The whole conversation -/

/-- After every sequence of calls on a new intake, more lines are needed exactly
while lines wait, and those are the ones taken in since the input was last settled.
Of the next call: a line leaves lines that wait exactly when its reply asks for
more; a call other than the compiling of a script works alike with all tools that
answer alike for the source that it asks for, and leaves compiler and cache alone if
it asks for none; and an empty line asks for more only inside a literal, unless
sources are changed. -/
theorem conversation_buffers_lines
    (tools : Tools γ ω) (service : γ) (world : ω) (calls : List Call) :
    let talk := (Conversation.start service world).run tools calls
    (talk.intake.needMore = true ↔ talk.intake.lines ≠ []) ∧
      talk.intake.lines = linesSinceSettled talk.transcript ∧
      ∀ call : Call,
        let next := call.perform tools talk.intake
        (∀ pushed, next.1 = .pushed pushed →
          (next.2.lines ≠ [] ↔ pushed.state = .awaiting)) ∧
        ((∀ path text ctx, call ≠ .compileFile path text ctx) →
          (∀ other : Tools γ ω, other.transform = tools.transform →
            (∀ source, call.asked? tools talk.intake = some source →
              AgreeOn source other tools) →
            call.perform other talk.intake = next) ∧
          (call.asked? tools talk.intake = none →
            next.2.service = talk.intake.service ∧
              next.2.world = talk.intake.world)) ∧
        (∀ ctx pushed, call = .emptyLine ctx → tools.transform = id →
          next.1 = .pushed pushed → pushed.state = .awaiting →
          Literal.endsInside next.2.text = true) := by
  intro talk
  have hgood : talk.Buffered := (Conversation.buffered_start service world).run calls
  refine ⟨hgood.needMore_iff, hgood.lines_eq, ?_⟩
  intro call next
  refine ⟨?_, ?_, ?_⟩
  · intro pushed hreply
    exact Call.perform_lines_ne_nil_iff hreply
  · intro hline
    constructor
    · intro other htransform hagree
      exact Call.perform_eq_of_agreeOn hgood.needMore_iff hline htransform hagree
    · intro hasked
      exact Call.perform_untouched hgood.needMore_iff hline hasked
  · intro ctx pushed hcall htransform hreply hawaiting
    subst hcall
    have hpushed : (talk.intake.emptyLine tools ctx).1 = pushed := Reply.pushed.inj hreply
    subst hpushed
    exact endsInside_of_emptyLine_awaiting htransform
      (fun _ hline => hgood.getLast?_of_mem hline) hawaiting

end Intake
end LineShell
