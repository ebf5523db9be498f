import LineShell.CommandLine.Execute
import LineShell.Proofs.Cache.Entries
import LineShell.Proofs.Intake.Buffering
import Mathlib.Tactic

/-!
# The cache is not seen in typed input

Two intakes share a compiler; one works without a cache, the other with one whose
entries are sound.  What becomes of a source is settled by the compiler's answer
alone, on either side, and with it the lines that wait.  So the two go through a
conversation in step, although their compilers are asked at different times and
their worlds drift apart.
-/

namespace LineShell
namespace Intake

open Cache

variable {γ ω σ : Type}

/-- A compiler answers for a source, a mode and a file name alone, and its units
carry the source that they came from. -/
structure AnswersBy (compiler : Compiler γ) (answers : Answers) : Prop where
  compile_eq : ∀ source mode filename ctx service,
    (compiler.compile source mode filename ctx service).1 = answers source mode filename
  source_eq : ∀ {source mode filename unit},
    answers source mode filename = .ok unit → unit.source = source

/-- The cache of an intake holds only sound entries and keeps them so. -/
def Trusted (tools : Tools γ ω) (answers : Answers) (good : ω → Prop) : Prop :=
  tools.cache.store.Keeps good
    (Sound tools.cache.digest tools.compiler.fingerprint answers)

/-- What becomes of a typed source, by the compiler's answer. -/
def verdict (source : String) : Except CompileError CompiledUnit → CompileState
  | .ok unit => .ready unit
  | .error e =>
    if e.isIncomplete && !(endsBlank source && !Literal.endsInside source) then .awaiting
    else .rejected e

/-! ## One attempt -/

theorem compileFresh_state
    {tools : Tools γ ω} {answers : Answers} (hanswers : AnswersBy tools.compiler answers)
    (source : String) (ctx : Context) (intake : Intake γ ω) :
    (intake.compileFresh tools source ctx).1 =
      verdict source (answers source .single stdinName) := by
  rw [compileFresh_eq]
  have hanswer := hanswers.compile_eq source .single stdinName ctx intake.service
  cases hresult : answers source .single stdinName with
  | ok unit =>
    rw [hresult] at hanswer
    simp only [hanswer, verdict]
  | error e =>
    rw [hresult] at hanswer
    simp only [hanswer, verdict]
    cases e.isIncomplete <;> cases endsBlank source <;> cases Literal.endsInside source <;>
      rfl

theorem answer_of_cached?
    {tools : Tools γ ω} {answers : Answers} {good : ω → Prop}
    (hanswers : AnswersBy tools.compiler answers) (htrusted : Trusted tools answers good)
    {intake : Intake γ ω} (hgood : good intake.world) {source : String}
    {unit : CompiledUnit} (hcached : intake.cached? tools source = some unit) :
    answers source .single stdinName = .ok unit := by
  unfold cached? at hcached
  split at hcached
  · obtain ⟨hsource, origin, hanswer⟩ :=
      UnitCache.lookup_sound htrusted hgood hcached
    -- The entry may stand under the key of another source, but its unit says which
    -- source it answers for.
    have horigin : origin = source := by
      rw [← hanswers.source_eq hanswer, hsource]
    rw [← horigin]
    exact hanswer
  · cases hcached

/-- What becomes of a source, with a unit of the cache or by the compiler's answer. -/
theorem compile_state_eq
    {tools : Tools γ ω} {answers : Answers} (hanswers : AnswersBy tools.compiler answers)
    (source : String) (ctx : Context) (intake : Intake γ ω) :
    (intake.compile tools source ctx).1 =
      match intake.cached? tools source with
      | some unit => .ready unit
      | none => verdict source (answers source .single stdinName) := by
  unfold compile
  cases intake.cached? tools source with
  | some unit => rfl
  | none => exact compileFresh_state hanswers source ctx intake

/-- What becomes of a source is settled by the compiler's answer, whether the cache
has it or not. -/
theorem compile_state
    {tools : Tools γ ω} {answers : Answers} {good : ω → Prop}
    (hanswers : AnswersBy tools.compiler answers) (htrusted : Trusted tools answers good)
    {intake : Intake γ ω} (hgood : good intake.world) (source : String) (ctx : Context) :
    (intake.compile tools source ctx).1 =
      verdict source (answers source .single stdinName) := by
  rw [compile_state_eq hanswers]
  cases hcached : intake.cached? tools source with
  | some unit =>
    rw [answer_of_cached? hanswers htrusted hgood hcached]
    rfl
  | none => rfl

theorem compile_state_of_uncached
    {tools : Tools γ ω} {answers : Answers} (hanswers : AnswersBy tools.compiler answers)
    (huncached : tools.cache.policy.interactive = false)
    (source : String) (ctx : Context) (intake : Intake γ ω) :
    (intake.compile tools source ctx).1 =
      verdict source (answers source .single stdinName) := by
  have hcached : intake.cached? tools source = none := by
    simp [cached?, Policy.allows, huncached]
  rw [compile_state_eq hanswers, hcached]

/-- Whatever the cache holds: a unit that is ready has the source, and any other state
comes of an error that the compiler answers. -/
theorem compile_outcome
    {tools : Tools γ ω} {answers : Answers} (hanswers : AnswersBy tools.compiler answers)
    (source : String) (ctx : Context) (intake : Intake γ ω) :
    (∃ unit, (intake.compile tools source ctx).1 = .ready unit ∧ unit.source = source) ∨
      ∃ e, answers source .single stdinName = .error e ∧
        ((intake.compile tools source ctx).1 = .rejected e ∨
          (intake.compile tools source ctx).1 = .awaiting ∧ e.isIncomplete = true ∧
            (endsBlank source = true → Literal.endsInside source = true)) := by
  unfold compile
  cases hcached : intake.cached? tools source with
  | some unit =>
    left
    unfold cached? at hcached
    split at hcached
    · exact ⟨unit, rfl, (UnitCache.exists_of_lookup_eq_some hcached).1⟩
    · cases hcached
  | none =>
    have hstate := compileFresh_state hanswers source ctx intake
    cases hresult : answers source .single stdinName with
    | ok unit =>
      rw [hresult] at hstate
      exact Or.inl ⟨unit, hstate, hanswers.source_eq hresult⟩
    | error e =>
      rw [hresult, verdict] at hstate
      refine Or.inr ⟨e, rfl, ?_⟩
      dsimp only
      split at hstate
      · rename_i hopen
        rw [Bool.and_eq_true] at hopen
        refine Or.inr ⟨hstate, hopen.1, ?_⟩
        intro hblank
        simpa [hblank] using hopen.2
      · exact Or.inl hstate

/-- Compiling typed input leaves the world as it was, or with an answer of the compiler
kept. -/
theorem compile_world
    {tools : Tools γ ω} {answers : Answers} (hanswers : AnswersBy tools.compiler answers)
    (source : String) (ctx : Context) (intake : Intake γ ω) :
    (intake.compile tools source ctx).2.world = intake.world ∨
      ∃ unit, answers source .single stdinName = .ok unit ∧
        (intake.compile tools source ctx).2.world =
          (tools.cache.insert source unit (.interactive tools.compiler.fingerprint)
            intake.world).2 := by
  unfold compile
  cases hcached : intake.cached? tools source with
  | some unit => exact Or.inl rfl
  | none =>
    simp only [compileFresh_eq]
    have hanswer := hanswers.compile_eq source .single stdinName ctx intake.service
    cases hresult : (tools.compiler.compile source .single stdinName ctx intake.service).1 with
    | ok unit =>
      rw [hresult] at hanswer
      simp only [reset, offer]
      split
      · exact Or.inr ⟨unit, hanswer.symm, rfl⟩
      · exact Or.inl rfl
    | error e =>
      left
      dsimp only
      split
      · split
        · rfl
        · rfl
      · rfl

theorem compile_good
    {tools : Tools γ ω} {answers : Answers} {good : ω → Prop}
    (hanswers : AnswersBy tools.compiler answers) (htrusted : Trusted tools answers good)
    {intake : Intake γ ω} (hgood : good intake.world) (source : String) (ctx : Context) :
    good (intake.compile tools source ctx).2.world := by
  rcases compile_world hanswers source ctx intake with hsame | ⟨unit, hanswer, hkept⟩
  · rw [hsame]
    exact hgood
  · rw [hkept]
    exact UnitCache.insert_good htrusted hgood (fun raw hraw => .typed hanswer hraw) source

theorem verdict_eq_ready
    {source : String} {result : Except CompileError CompiledUnit} {unit : CompiledUnit}
    (hready : verdict source result = .ready unit) : result = .ok unit := by
  cases result with
  | ok found =>
    rw [verdict] at hready
    cases hready
    rfl
  | error e =>
    rw [verdict] at hready
    split at hready
    · cases hready
    · cases hready

/-- A ready unit leaves the world as it was, or with that unit kept. -/
theorem compile_ready_world
    {tools : Tools γ ω} {source : String} {ctx : Context} {intake : Intake γ ω}
    {unit : CompiledUnit} (hready : (intake.compile tools source ctx).1 = .ready unit) :
    (intake.compile tools source ctx).2.world = intake.world ∨
      (intake.compile tools source ctx).2.world =
        (tools.cache.insert source unit (.interactive tools.compiler.fingerprint)
          intake.world).2 := by
  unfold compile at hready ⊢
  cases hcached : intake.cached? tools source with
  | some found => exact Or.inl rfl
  | none =>
    simp only [hcached, compileFresh_eq] at hready ⊢
    cases hresult : (tools.compiler.compile source .single stdinName ctx intake.service).1 with
    | ok found =>
      simp only [hresult, CompileState.ready.injEq] at hready
      simp only [reset, offer, hready]
      split
      · exact Or.inr rfl
      · exact Or.inl rfl
    | error e =>
      simp only [hresult] at hready
      split at hready
      · split at hready
        · cases hready
        · cases hready
      · cases hready

/-! ## Lines that are taken in -/

/-- A line was taken in, with which the lines that wait make a list: either they still
wait, or their text is settled.  A unit that is ready is the compiler's answer for that
text. -/
structure Took (tools : Tools γ ω) (answers : Answers) (good : ω → Prop) (world : ω)
    (lines : List String) (fed : Pushed × Intake γ ω) : Prop where
  lines_eq : fed.2.lines = if fed.1.state = .awaiting then lines else []
  good : good fed.2.world
  ready : ∀ unit, fed.1.state = .ready unit →
    answers (tools.transform (String.join lines)) .single stdinName = .ok unit ∧
      fed.2.needMore = false ∧
      (fed.2.world = world ∨
        fed.2.world = (tools.cache.insert (tools.transform (String.join lines)) unit
          (.interactive tools.compiler.fingerprint) world).2)

theorem compile_took
    {tools : Tools γ ω} {answers : Answers} {good : ω → Prop}
    (hanswers : AnswersBy tools.compiler answers) (htrusted : Trusted tools answers good)
    {intake : Intake γ ω} (hgood : good intake.world) (ctx : Context) :
    let source := tools.transform (String.join intake.lines)
    let next := intake.compile tools source ctx
    Took tools answers good intake.world intake.lines (⟨source, next.1⟩, next.2) := by
  intro source next
  have hattempt := compile_attempted tools source ctx intake
  constructor
  · exact hattempt.lines_eq
  · exact compile_good hanswers htrusted hgood source ctx
  · intro unit hready
    have hstate : next.1 = .ready unit := hready
    have hverdict := compile_state hanswers htrusted hgood source ctx
    refine ⟨verdict_eq_ready (hverdict.symm.trans hstate), ?_, compile_ready_world hstate⟩
    have hneed : ¬ next.2.needMore = true := by
      rw [hattempt.needMore_iff]
      intro hawaiting
      rw [show next.1 = .awaiting from hawaiting] at hstate
      cases hstate
    simpa using hneed

theorem push_took
    {tools : Tools γ ω} {answers : Answers} {good : ω → Prop}
    (hanswers : AnswersBy tools.compiler answers) (htrusted : Trusted tools answers good)
    {intake : Intake γ ω} (hgood : good intake.world) (line : String) (ctx : Context) :
    Took tools answers good intake.world (intake.lines ++ [withLineEnd line])
      (intake.push tools line ctx) := by
  cases hneed : intake.needMore with
  | true =>
    rw [push_of_needMore hneed]
    constructor
    · rfl
    · exact hgood
    · intro unit hready
      cases hready
  | false =>
    have hjoined : good { intake with lines := intake.lines ++ [withLineEnd line] }.world :=
      hgood
    rw [push_of_not_needMore hneed]
    exact compile_took hanswers htrusted hjoined ctx

theorem emptyLine_took
    {tools : Tools γ ω} {answers : Answers} {good : ω → Prop}
    (hanswers : AnswersBy tools.compiler answers) (htrusted : Trusted tools answers good)
    {intake : Intake γ ω} (hgood : good intake.world) (ctx : Context) :
    Took tools answers good intake.world (intake.lines ++ ["\n"])
      (intake.emptyLine tools ctx) := by
  have hjoined : good { intake with
      lines := intake.lines ++ ["\n"], needMore := false }.world :=
    hgood
  rw [emptyLine_eq]
  exact compile_took hanswers htrusted hjoined ctx

theorem scriptStamp?_eq_some
    {tools : Tools γ ω} {path : String} {intake : Intake γ ω} {stamp : Stamp}
    (hstamp : intake.scriptStamp? tools path = some stamp) :
    Stamp.script? tools.compiler.fingerprint (tools.modified? path intake.world) =
      some stamp := by
  unfold scriptStamp? at hstamp
  split at hstamp
  · exact hstamp
  · cases hstamp

/-- A script is answered by the compiler, and then the world is as it was or has that
answer kept; or the cache has a unit for its source and its stamp. -/
theorem compileFile_cases
    {tools : Tools γ ω} {answers : Answers} (hanswers : AnswersBy tools.compiler answers)
    (path text : String) (ctx : Context) (intake : Intake γ ω) :
    let source := withLineEnd text
    let next := intake.compileFile tools path text ctx
    (∃ stamp unit, intake.scriptStamp? tools path = some stamp ∧
        tools.cache.lookup source stamp intake.world = some unit ∧
        next = (.ok unit, intake)) ∨
      next.1 = answers source .exec path ∧
        (next.2.world = intake.world ∨
          ∃ stamp unit, intake.scriptStamp? tools path = some stamp ∧
            answers source .exec path = .ok unit ∧
            next.2.world = (tools.cache.insert source unit stamp intake.world).2) := by
  intro source next
  have hanswer := hanswers.compile_eq source .exec path ctx intake.service
  cases hfound : (intake.scriptStamp? tools path).bind
      fun stamp => tools.cache.lookup source stamp intake.world with
  | some unit =>
    left
    obtain ⟨stamp, hstamp, hlookup⟩ := Option.bind_eq_some_iff.mp hfound
    exact ⟨stamp, unit, hstamp, hlookup, by simp only [next, compileFile, source, hfound]⟩
  | none =>
    right
    cases hresult : (tools.compiler.compile source .exec path ctx intake.service).1 with
    | error e =>
      rw [← hanswer, hresult]
      simp [next, compileFile, source, hfound, hresult]
    | ok unit =>
      rw [← hanswer, hresult]
      cases hstamp : intake.scriptStamp? tools path with
      | none => simp [next, compileFile, source, hresult, hstamp]
      | some stamp =>
        rw [hstamp] at hfound
        simp [next, compileFile, source, hfound, hresult, hstamp, keep]

theorem compileFile_good
    {tools : Tools γ ω} {answers : Answers} {good : ω → Prop}
    (hanswers : AnswersBy tools.compiler answers) (htrusted : Trusted tools answers good)
    {intake : Intake γ ω} (hgood : good intake.world) (path text : String)
    (ctx : Context) : good (intake.compileFile tools path text ctx).2.world := by
  rcases compileFile_cases hanswers path text ctx intake with
    ⟨stamp, unit, hstamp, hfound, hnext⟩ |
      ⟨hresult, hsame | ⟨stamp, unit, hstamp, hanswer, hkept⟩⟩
  · rw [hnext]
    exact hgood
  · rw [hsame]
    exact hgood
  · rw [hkept]
    exact UnitCache.insert_good htrusted hgood
      (fun raw hraw => .script hanswer (scriptStamp?_eq_some hstamp) hraw) (withLineEnd text)

/-! ## Two intakes in step -/

/-- An intake without a cache and one with a cache, over one compiler. -/
structure Paired (plain : Tools γ ω) (cached : Tools γ σ) (answers : Answers)
    (good : σ → Prop) : Prop where
  compiler_eq : cached.compiler = plain.compiler
  transform_eq : cached.transform = plain.transform
  uncached : plain.cache.policy.interactive = false
  answers_by : AnswersBy plain.compiler answers
  trusted : Trusted cached answers good

/-- The same lines wait on both sides, and the cache is sound. -/
structure Alike (good : σ → Prop) (first : Intake γ ω) (second : Intake γ σ) : Prop where
  lines_eq : first.lines = second.lines
  needMore_eq : first.needMore = second.needMore
  good : good second.world

variable {plain : Tools γ ω} {cached : Tools γ σ} {answers : Answers} {good : σ → Prop}

theorem Alike.compile
    {first : Intake γ ω} {second : Intake γ σ} (halike : Alike good first second)
    (hpaired : Paired plain cached answers good) (source : String) (ctx : Context) :
    (first.compile plain source ctx).1 = (second.compile cached source ctx).1 ∧
      Alike good (first.compile plain source ctx).2 (second.compile cached source ctx).2 := by
  have hanswers : AnswersBy cached.compiler answers := by
    rw [hpaired.compiler_eq]
    exact hpaired.answers_by
  have hfirst := compile_state_of_uncached hpaired.answers_by hpaired.uncached source ctx first
  have hsecond := compile_state hanswers hpaired.trusted halike.good source ctx
  have hstate := hfirst.trans hsecond.symm
  have hleft := compile_attempted plain source ctx first
  have hright := compile_attempted cached source ctx second
  refine ⟨hstate, ?_, ?_, compile_good hanswers hpaired.trusted halike.good source ctx⟩
  · rw [hleft.lines_eq, hright.lines_eq, hstate, halike.lines_eq]
  · rw [Bool.eq_iff_iff, hleft.needMore_iff, hright.needMore_iff, hstate]

theorem Alike.perform
    {first : Intake γ ω} {second : Intake γ σ} (halike : Alike good first second)
    (hpaired : Paired plain cached answers good) {call : Call}
    (hline : ∀ path text ctx, call ≠ .compileFile path text ctx) :
    (call.perform plain first).1 = (call.perform cached second).1 ∧
      Alike good (call.perform plain first).2 (call.perform cached second).2 := by
  cases call with
  | push line ctx =>
    cases hneed : first.needMore with
    | true =>
      have hneed' : second.needMore = true := by rw [← halike.needMore_eq, hneed]
      simp only [Call.perform, push_of_needMore hneed, push_of_needMore hneed',
        halike.lines_eq]
      exact ⟨trivial, rfl, halike.needMore_eq, halike.good⟩
    | false =>
      have hneed' : second.needMore = false := by rw [← halike.needMore_eq, hneed]
      have hjoined : Alike good { first with lines := first.lines ++ [withLineEnd line] }
          { second with lines := second.lines ++ [withLineEnd line] } :=
        ⟨by rw [halike.lines_eq], halike.needMore_eq, halike.good⟩
      have hattempt := hjoined.compile hpaired
        (plain.transform (String.join (second.lines ++ [withLineEnd line]))) ctx
      simp only [Call.perform, push_of_not_needMore hneed, push_of_not_needMore hneed',
        hpaired.transform_eq, halike.lines_eq] at hattempt ⊢
      exact ⟨by rw [hattempt.1], hattempt.2⟩
  | emptyLine ctx =>
    have hjoined : Alike good
        { first with lines := first.lines ++ ["\n"], needMore := false }
        { second with lines := second.lines ++ ["\n"], needMore := false } :=
      ⟨by rw [halike.lines_eq], rfl, halike.good⟩
    have hattempt := hjoined.compile hpaired
      (plain.transform (String.join (second.lines ++ ["\n"]))) ctx
    simp only [Call.perform, emptyLine_eq, hpaired.transform_eq, halike.lines_eq]
      at hattempt ⊢
    exact ⟨by rw [hattempt.1], hattempt.2⟩
  | reset => exact ⟨rfl, rfl, rfl, halike.good⟩
  | compileFile path text ctx => exact absurd rfl (hline path text ctx)

theorem Alike.run
    {first : Conversation γ ω} {second : Conversation γ σ}
    (halike : Alike good first.intake second.intake)
    (htranscript : first.transcript = second.transcript)
    (hpaired : Paired plain cached answers good) {calls : List Call}
    (hcalls : ∀ call ∈ calls, ∀ path text ctx, call ≠ .compileFile path text ctx) :
    (first.run plain calls).transcript = (second.run cached calls).transcript ∧
      Alike good (first.run plain calls).intake (second.run cached calls).intake := by
  induction calls generalizing first second with
  | nil => exact ⟨htranscript, halike⟩
  | cons call rest ih =>
    obtain ⟨hreply, hnext⟩ := halike.perform hpaired (hcalls call List.mem_cons_self)
    have hsaid : (first.say plain call).transcript = (second.say cached call).transcript := by
      simp only [Conversation.say, htranscript, hreply]
    have hrest : ∀ later ∈ rest, ∀ path text ctx, later ≠ .compileFile path text ctx := by
      intro later hlater
      exact hcalls later (List.mem_cons_of_mem call hlater)
    exact ih hnext hsaid hrest

/-- Typed input goes the same way with and without a cache.  Let two new intakes share
a compiler that answers for source, mode and file name alone and a change made to
sources; the first uses no cache for typed input, and the entries of the second
one's cache were written for answers of the compiler, under whatever keys, or cannot
be read.  Then every conversation of lines, empty lines and resets gets the same
replies, and leaves the same lines and the same need of more, whatever the digest and
however the store takes what it is given. -/
theorem cache_unseen_in_typed_input
    (hpaired : Paired plain cached answers good) (service other : γ) (world : ω)
    {entries : σ} (hgood : good entries) {calls : List Call}
    (hcalls : ∀ call ∈ calls, ∀ path text ctx, call ≠ .compileFile path text ctx) :
    let first := (Conversation.start service world).run plain calls
    let second := (Conversation.start other entries).run cached calls
    first.transcript = second.transcript ∧
      first.intake.lines = second.intake.lines ∧
      first.intake.needMore = second.intake.needMore := by
  intro first second
  have hstart : Alike good (Conversation.start service world).intake
      (Conversation.start other entries).intake :=
    ⟨rfl, rfl, hgood⟩
  obtain ⟨htranscript, halike⟩ := hstart.run rfl hpaired hcalls
  exact ⟨htranscript, halike.lines_eq, halike.needMore_eq⟩

/-! ## The line language over a map -/

theorem compile_source_eq
    {source filename : String} {mode : Mode} {unit : CompiledUnit}
    (hunit : Language.compile source mode filename = .ok unit) : unit.source = source := by
  unfold Language.compile at hunit
  split at hunit
  · cases hunit
    rfl
  · cases hunit

theorem compiler_answersBy : AnswersBy CommandLine.compiler Language.compile := by
  constructor
  · intro source mode filename ctx service
    rfl
  · intro source mode filename unit hunit
    exact compile_source_eq hunit

/-- The line language with a cache in memory. -/
def memoryTools (policy : Policy) (digest : DigestFunction) : Tools Unit Entries where
  compiler := CommandLine.compiler
  cache := ⟨policy, digest, .memory⟩
  transform := id
  modified? _ _ := none

/-- A cache with a torn entry, in which all sources share one key, is not seen. -/
theorem cache_unseen_among_collisions :
    let calls : List Call := [.push "echo one" .empty, .push "repeat 2:" .empty,
      .push "  echo two" .empty, .emptyLine .empty, .push "echo one" .empty]
    let first := (Conversation.start () .empty).run (memoryTools .off fun _ => 0) calls
    let second := (Conversation.start () (Bindings.empty.insert ⟨0⟩ [1, 0])).run
      (memoryTools .all fun _ => 0) calls
    first.transcript = second.transcript ∧
      first.intake.lines = second.intake.lines ∧
      first.intake.needMore = second.intake.needMore := by
  intro calls
  have hpaired : Paired (memoryTools .off fun _ => 0) (memoryTools .all fun _ => 0)
      Language.compile (fun entries => ∀ key raw, entries.find? key = some raw →
        Sound (fun _ => 0) Language.fingerprint Language.compile raw) :=
    ⟨rfl, rfl, rfl, compiler_answersBy, Store.memory_keeps _⟩
  have hgood : ∀ key raw,
      (Bindings.empty.insert ⟨0⟩ [1, 0] : Entries).find? key = some raw →
        Sound (fun _ => 0) Language.fingerprint Language.compile raw := by
    intro key raw hfound
    rw [Bindings.find?_insert] at hfound
    split at hfound
    · cases hfound
      right
      intro unit hdecode
      simp [Artifact.decode, throw, throwThe, MonadExceptOf.throw, bind, Except.bind]
        at hdecode
    · cases hfound
  have hcalls : ∀ call ∈ calls, ∀ path text ctx, call ≠ .compileFile path text ctx := by
    simp [calls]
  obtain ⟨htranscript, hlines, hneed⟩ :=
    cache_unseen_in_typed_input hpaired () () Bindings.empty hgood hcalls
  -- The two sides are compared as they stand; nothing of the conversation is run.
  refine ⟨?_, ?_, ?_⟩
  · with_reducible exact htranscript
  · with_reducible exact hlines
  · with_reducible exact hneed

end Intake
end LineShell
