import LineShell.Proofs.CommandLine.Setup
import LineShell.Proofs.Text.Numeral

/-!
# Scripts that share a cache

The entry of a script is filed under its text and stamped with the time of the file's
last change; its path is in neither.  So a script may be answered with the unit of
another one: of a script that was compiled before, has the same text and was last
changed at the very same time.  That is all that the cache can do.  Typed input carries
another stamp, other texts are told apart by the source in the unit, and a script whose
text and time no other one shares gets what the compiler says.

The invariant says of every entry which call left it: one for typed input, or one for
a script among those that were compiled so far.
-/

namespace LineShell
namespace Cache

variable {ω σ : Type}

/-- Of a store we can say that every entry in it is known, for any set of known bytes:
it then loads only known ones, and saving known ones keeps it so. -/
structure Store.Tracks (store : Store ω) (holds : (Bytes → Prop) → ω → Prop) :
    Prop where
  keeps : ∀ known, store.Keeps (holds known) known
  mono : ∀ {known more : Bytes → Prop} {world}, (∀ raw, known raw → more raw) →
    holds known world → holds more world

theorem Store.disk_tracks (directory : String) : (disk directory).Tracks SoundFiles := by
  constructor
  · exact disk_keeps directory
  · intro known more fs hmore hholds place name bytes hname hending hfile
    exact hmore bytes (hholds place name bytes hname hending hfile)

theorem Store.Tracks.within
    {store : Store σ} {holds : (Bytes → Prop) → σ → Prop} (htracks : store.Tracks holds)
    {get : ω → σ} {set : ω → σ → ω} (hset : ∀ world part, get (set world part) = part) :
    (store.within get set).Tracks fun known world => holds known (get world) := by
  constructor
  · intro known
    exact (htracks.keeps known).within hset
  · intro known more world hmore hholds
    exact htracks.mono hmore hholds

theorem Stamp.script?_injective
    {compiler : String} {first second : Option Int} {stamp : Stamp}
    (hfirst : script? compiler first = some stamp)
    (hsecond : script? compiler second = some stamp) : first = second := by
  have htime : ∀ {modified : Option Int}, script? compiler modified = some stamp →
      ∃ time : Nat, modified = some (time : Int) ∧
        stamp = ⟨compiler ++ "@" ++ Text.Numeral.naturalText time⟩ := by
    intro modified hstamp
    unfold script? at hstamp
    cases modified with
    | none => cases hstamp
    | some time =>
      dsimp only at hstamp
      split at hstamp
      · rename_i hepoch
        cases hstamp
        exact ⟨time.toNat, congrArg some (Int.toNat_of_nonneg hepoch).symm, rfl⟩
      · cases hstamp
  obtain ⟨time, hmodified, hstamp⟩ := htime hfirst
  obtain ⟨other, hother, hsame⟩ := htime hsecond
  have htext : Text.Numeral.naturalText time = Text.Numeral.naturalText other := by
    have hjoined := congrArg Stamp.text (hstamp.symm.trans hsame)
    simpa [String.append_assoc, ← String.toList_inj] using hjoined
  have hread := congrArg (fun text => Text.Numeral.read? 10 text.toList) htext
  simp only [Text.Numeral.naturalText, String.toList_ofList, Text.Numeral.read?_natural,
    Option.some.injEq] at hread
  rw [hmodified, hother, hread]

end Cache

namespace Intake

open Cache

variable {γ ω : Type}

/-! ## The scripts of a conversation -/

/-- A script as it was given to the intake, with the time of the file's last change. -/
structure Script where
  path : String
  source : String
  modified : Option Int
  deriving DecidableEq

def script (tools : Tools γ ω) (path text : String) (intake : Intake γ ω) : Script :=
  ⟨path, withLineEnd text, tools.modified? path intake.world⟩

def Call.script? (tools : Tools γ ω) (intake : Intake γ ω) : Call → Option Script
  | .compileFile path text _ => some (intake.script tools path text)
  | .push .. | .emptyLine _ | .reset => none

/-- The scripts that calls compile, one after the other. -/
def scriptsOf (tools : Tools γ ω) : Intake γ ω → List Call → List Script
  | _, [] => []
  | intake, call :: rest =>
    (call.script? tools intake).toList ++ scriptsOf tools (call.perform tools intake).2 rest

/-- The same tools without a cache. -/
def Tools.uncached (tools : Tools γ ω) : Tools γ ω :=
  { tools with cache := { tools.cache with policy := .off } }

/-! ## Where entries come from -/

/-- The bytes that typed input and some scripts may have left in a cache. -/
inductive Recorded (digest : DigestFunction) (compiler : String) (answers : Answers)
    (scripts : List Script) : Bytes → Prop where
  | typed {source : String} {unit : CompiledUnit} {raw : Bytes}
      (hanswer : answers source .single stdinName = .ok unit)
      (hraw : Artifact.encode digest unit (.interactive compiler) = .ok raw) :
      Recorded digest compiler answers scripts raw
  | script {known : Script} {stamp : Stamp} {unit : CompiledUnit} {raw : Bytes}
      (hknown : known ∈ scripts)
      (hanswer : answers known.source .exec known.path = .ok unit)
      (hstamp : Stamp.script? compiler known.modified = some stamp)
      (hraw : Artifact.encode digest unit stamp = .ok raw) :
      Recorded digest compiler answers scripts raw

theorem Recorded.append
    {digest : DigestFunction} {compiler : String} {answers : Answers}
    {scripts : List Script} {raw : Bytes}
    (hrecorded : Recorded digest compiler answers scripts raw) (more : List Script) :
    Recorded digest compiler answers (scripts ++ more) raw := by
  cases hrecorded with
  | typed hanswer hraw => exact .typed hanswer hraw
  | script hknown hanswer hstamp hraw =>
    exact .script (List.mem_append_left more hknown) hanswer hstamp hraw

/-- An entry that is found for a script was left by one with the same text and time. -/
theorem Recorded.exists_script
    {digest : DigestFunction} {compiler : String} {answers : Answers}
    {scripts : List Script} {raw : Bytes}
    (hrecorded : Recorded digest compiler answers scripts raw)
    {modified : Option Int} {stamp : Stamp}
    (hstamp : Stamp.script? compiler modified = some stamp) {unit : CompiledUnit}
    (hdecode : Artifact.decode digest raw stamp = .ok unit) :
    ∃ known ∈ scripts, known.modified = modified ∧
      answers known.source .exec known.path = .ok unit := by
  cases hrecorded with
  | typed hanswer hraw =>
    obtain ⟨⟨hsame, _⟩, _⟩ := (Artifact.decode_eq_ok_iff hraw _ _).mp hdecode
    exact absurd hsame.symm (Stamp.script?_ne_interactive hstamp)
  | script hknown hanswer hknownStamp hraw =>
    obtain ⟨⟨hsame, hunit⟩, _⟩ := (Artifact.decode_eq_ok_iff hraw _ _).mp hdecode
    subst hsame hunit
    exact ⟨_, hknown, Stamp.script?_injective hknownStamp hstamp, hanswer⟩

variable {tools : Tools γ ω} {answers : Answers} {holds : (Bytes → Prop) → ω → Prop}

/-- Every entry of the cache was left by typed input or by one of the scripts. -/
def Traced (tools : Tools γ ω) (answers : Answers) (holds : (Bytes → Prop) → ω → Prop)
    (scripts : List Script) (world : ω) : Prop :=
  holds (Recorded tools.cache.digest tools.compiler.fingerprint answers scripts) world

theorem Traced.append
    (htracks : tools.cache.store.Tracks holds) {scripts : List Script} {world : ω}
    (htraced : Traced tools answers holds scripts world) (more : List Script) :
    Traced tools answers holds (scripts ++ more) world :=
  htracks.mono (fun _ hraw => hraw.append more) htraced

theorem Traced.compile
    (hanswers : AnswersBy tools.compiler answers) (htracks : tools.cache.store.Tracks holds)
    {scripts : List Script} {intake : Intake γ ω}
    (htraced : Traced tools answers holds scripts intake.world) (source : String)
    (ctx : Context) :
    Traced tools answers holds scripts (intake.compile tools source ctx).2.world := by
  rcases compile_world hanswers source ctx intake with hsame | ⟨unit, hanswer, hkept⟩
  · rw [hsame]
    exact htraced
  · rw [hkept]
    exact UnitCache.insert_keeps (htracks.keeps _) htraced
      (fun raw hraw => .typed hanswer hraw) source

theorem Traced.push
    (hanswers : AnswersBy tools.compiler answers) (htracks : tools.cache.store.Tracks holds)
    {scripts : List Script} {intake : Intake γ ω}
    (htraced : Traced tools answers holds scripts intake.world) (line : String)
    (ctx : Context) :
    Traced tools answers holds scripts (intake.push tools line ctx).2.world := by
  cases hneed : intake.needMore with
  | true =>
    rw [push_of_needMore hneed]
    exact htraced
  | false =>
    have hjoined : Traced tools answers holds scripts
        { intake with lines := intake.lines ++ [withLineEnd line] }.world :=
      htraced
    rw [push_of_not_needMore hneed]
    exact hjoined.compile hanswers htracks _ ctx

theorem Traced.compileFile
    (hanswers : AnswersBy tools.compiler answers) (htracks : tools.cache.store.Tracks holds)
    {scripts : List Script} {intake : Intake γ ω}
    (htraced : Traced tools answers holds scripts intake.world) (path text : String)
    (ctx : Context) :
    Traced tools answers holds (scripts ++ [intake.script tools path text])
      (intake.compileFile tools path text ctx).2.world := by
  have hmore := htraced.append htracks [intake.script tools path text]
  rcases compileFile_cases hanswers path text ctx intake with
    ⟨stamp, unit, hstamp, hfound, hnext⟩ |
      ⟨hresult, hsame | ⟨stamp, unit, hstamp, hanswer, hkept⟩⟩
  · rw [hnext]
    exact hmore
  · rw [hsame]
    exact hmore
  · rw [hkept]
    refine UnitCache.insert_keeps (htracks.keeps _) hmore (fun raw hraw => ?_) _
    exact .script (List.mem_append_right scripts (List.mem_singleton.mpr rfl)) hanswer
      (scriptStamp?_eq_some hstamp) hraw

theorem Traced.perform
    (hanswers : AnswersBy tools.compiler answers) (htracks : tools.cache.store.Tracks holds)
    {scripts : List Script} {intake : Intake γ ω}
    (htraced : Traced tools answers holds scripts intake.world) (call : Call) :
    Traced tools answers holds (scripts ++ (call.script? tools intake).toList)
      (call.perform tools intake).2.world := by
  cases call with
  | push line ctx =>
    rw [Call.script?, Option.toList_none, List.append_nil]
    exact htraced.push hanswers htracks line ctx
  | emptyLine ctx =>
    have hready : Traced tools answers holds scripts
        { intake with needMore := false }.world :=
      htraced
    rw [Call.script?, Option.toList_none, List.append_nil]
    exact hready.push hanswers htracks "\n" ctx
  | reset =>
    rw [Call.script?, Option.toList_none, List.append_nil]
    exact htraced
  | compileFile path text ctx => exact htraced.compileFile hanswers htracks path text ctx

theorem Traced.run
    (hanswers : AnswersBy tools.compiler answers) (htracks : tools.cache.store.Tracks holds)
    {scripts : List Script} {talk : Conversation γ ω}
    (htraced : Traced tools answers holds scripts talk.intake.world) (calls : List Call) :
    Traced tools answers holds (scripts ++ scriptsOf tools talk.intake calls)
      (talk.run tools calls).intake.world := by
  induction calls generalizing scripts talk with
  | nil =>
    rw [scriptsOf, List.append_nil]
    exact htraced
  | cons call rest ih =>
    have hnext : Traced tools answers holds
        (scripts ++ (call.script? tools talk.intake).toList)
        (talk.say tools call).intake.world :=
      htraced.perform hanswers htracks call
    rw [scriptsOf, ← List.append_assoc]
    exact ih hnext

/-! ## Two files with one text -/

/-- The store of the shell's own cache, whatever the host and the directory. -/
theorem setup_tracks
    {host : Host ω} (hhost : host.KeepsFiles) (settings : Settings) (cacheDir : String)
    (journal : Option (History.Journal History.Database ShellError)) :
    (CommandLine.setup host settings cacheDir journal).tools.cache.store.Tracks
      fun known world => Store.SoundFiles known (host.files world) :=
  (Store.disk_tracks cacheDir).within hhost.files_withFiles

/-- Two files with the same text, with the times of their last changes. -/
def twins (first second : Int) : FileSystem where
  nodes := (Bindings.empty.insert ["a"] (.file (Text.Utf8.encode "true") first)).insert
    ["b"] (.file (Text.Utf8.encode "true") second)
  current := []
  now := second

theorem twins_hold_no_entry (first second : Int) :
    Store.SoundFiles (fun _ => False) (twins first second) := by
  intro place name bytes hname hending hfile
  unfold FileSystem.fileAt? FileSystem.node? twins at hfile
  simp only [Bindings.find?_insert, Bindings.find?_empty] at hfile
  by_cases hsecond : place = ["b"]
  · subst hsecond
    cases hname
    exact absurd hending (by decide)
  · by_cases hfirst : place = ["a"]
    · subst hfirst
      cases hname
      exact absurd hending (by decide)
    · rw [if_neg hsecond, if_neg hfirst] at hfile
      by_cases hroot : place = []
      · simp [hroot] at hfile
      · simp [hroot] at hfile

def twinTools : Tools Unit FileSystem :=
  (CommandLine.setup Host.ofFiles ⟨.utf8, .replace, .none, .none, .all⟩ "/cache" none).tools

/-! ## What a script gets -/

theorem compileFile_uncached
    (hanswers : AnswersBy tools.compiler answers) (path text : String) (ctx : Context)
    (intake : Intake γ ω) :
    (intake.compileFile tools.uncached path text ctx).1 =
      answers (withLineEnd text) .exec path := by
  have hplain : AnswersBy tools.uncached.compiler answers := hanswers
  rcases compileFile_cases hplain path text ctx intake with
    ⟨stamp, unit, hstamp, hfound, hnext⟩ | ⟨hresult, -⟩
  · cases hstamp
  · exact hresult

theorem Traced.compileFile_result
    (hanswers : AnswersBy tools.compiler answers) (htracks : tools.cache.store.Tracks holds)
    {scripts : List Script} {intake : Intake γ ω}
    (htraced : Traced tools answers holds scripts intake.world) (path text : String)
    (ctx : Context) :
    (intake.compileFile tools path text ctx).1 = answers (withLineEnd text) .exec path ∨
      ∃ known ∈ scripts, ∃ unit, known.source = withLineEnd text ∧
        known.modified = tools.modified? path intake.world ∧
        answers (withLineEnd text) .exec known.path = .ok unit ∧
        (intake.compileFile tools path text ctx).1 = .ok unit := by
  rcases compileFile_cases hanswers path text ctx intake with
    ⟨stamp, unit, hstamp, hfound, hnext⟩ | ⟨hresult, -⟩
  · right
    obtain ⟨hsource, raw, hload, hdecode⟩ := UnitCache.exists_of_lookup_eq_some hfound
    have hrecorded := (htracks.keeps _).load_sound htraced hload
    obtain ⟨known, hknown, hmodified, hanswer⟩ :=
      hrecorded.exists_script (scriptStamp?_eq_some hstamp) hdecode
    -- The unit says which text it was compiled from, so the key plays no part.
    have hsame : known.source = withLineEnd text := by
      rw [← hanswers.source_eq hanswer, hsource]
    rw [hsame] at hanswer
    exact ⟨known, hknown, unit, hsame, hmodified, hanswer, by rw [hnext]⟩
  · exact Or.inl hresult

/-- Let the store of a new intake hold nothing, and let any calls be made on the intake.
A script then gets the very answer that it gets without a cache if every script that
was compiled before with the same text, and was last changed at the same time, has the
same path.  In any case it gets that answer, or the unit that such a script gets without
a cache; and a unit that it gets is always one for its text. -/
theorem script_answered_as_an_equal_one
    (tools : Tools γ ω) (hanswers : AnswersBy tools.compiler answers)
    (htracks : tools.cache.store.Tracks holds) (world : ω)
    (hempty : holds (fun _ => False) world) (service : γ) (calls : List Call)
    (path text : String) (ctx : Context) :
    let intake := ((Conversation.start service world).run tools calls).intake
    let earlier := scriptsOf tools (.idle service world) calls
    let asked := intake.script tools path text
    let result := (intake.compileFile tools path text ctx).1
    let plain path := (intake.compileFile tools.uncached path text ctx).1
    ((∀ known ∈ earlier, known.source = asked.source → known.modified = asked.modified →
        known.path = path) → result = plain path) ∧
      (result = plain path ∨
        ∃ known ∈ earlier, ∃ unit, known.source = asked.source ∧
          known.modified = asked.modified ∧ plain known.path = .ok unit ∧
          result = .ok unit) ∧
      (∀ origin, plain origin = answers asked.source .exec origin) ∧
      ∀ unit, result = .ok unit → unit.source = asked.source := by
  intro intake earlier asked result plain
  have hplain : ∀ origin, plain origin = answers asked.source .exec origin := by
    intro origin
    exact compileFile_uncached hanswers origin text ctx intake
  have hstart : Traced tools answers holds [] (Conversation.start service world).intake.world :=
    htracks.mono (fun _ hraw => hraw.elim) hempty
  have htraced : Traced tools answers holds earlier intake.world :=
    hstart.run hanswers htracks calls
  have hcases : result = plain path ∨
      ∃ known ∈ earlier, ∃ unit, known.source = asked.source ∧
        known.modified = asked.modified ∧ plain known.path = .ok unit ∧
        result = .ok unit := by
    rcases htraced.compileFile_result hanswers htracks path text ctx with
      hown | ⟨known, hknown, unit, hsource, hmodified, hanswer, hshared⟩
    · exact Or.inl (hown.trans (hplain path).symm)
    · exact Or.inr ⟨known, hknown, unit, hsource, hmodified,
        (hplain known.path).trans hanswer, hshared⟩
  refine ⟨?_, hcases, hplain, ?_⟩
  · intro halone
    rcases hcases with hown | ⟨known, hknown, unit, hsource, hmodified, hanswer, hshared⟩
    · exact hown
    · rw [hshared, ← hanswer, halone known hknown hsource hmodified]
  · intro unit hunit
    rcases hcases with hown | ⟨known, -, found, -, -, hanswer, hshared⟩
    · exact hanswers.source_eq ((hplain path).symm.trans (hown.symm.trans hunit))
    · cases hshared.symm.trans hunit
      exact hanswers.source_eq ((hplain known.path).symm.trans hanswer)

/-- The second of two files that were last changed at different times gets a unit with
its own path, although the first one and typed input with the same text came before. -/
theorem later_twin_answered_by_itself :
    let calls : List Call := [.compileFile "/a" "true" .empty, .push "true" .empty]
    let intake := ((Conversation.start () (twins 5 6)).run twinTools calls).intake
    (intake.compileFile twinTools "/b" "true" .empty).1 =
      .ok ⟨"true\n", .exec, "/b", [1, 4]⟩ := by
  intro calls intake
  obtain ⟨halone, -, hplain, -⟩ := script_answered_as_an_equal_one twinTools
    compiler_answersBy (setup_tracks Host.ofFiles_keepsFiles _ "/cache" none) (twins 5 6)
    (twins_hold_no_entry 5 6) () calls "/b" "true" .empty
  have hearlier : scriptsOf twinTools (.idle () (twins 5 6)) calls =
      [⟨"/a", "true\n", some 5⟩] := by
    decide +kernel +zetaReduce
  have hasked : intake.script twinTools "/b" "true" = ⟨"/b", "true\n", some 6⟩ := by
    decide +kernel +zetaReduce
  have hresult := halone (by
    intro known hknown hsource hmodified
    rw [hearlier] at hknown
    rw [List.mem_singleton.mp hknown] at hmodified
    cases hmodified.trans (congrArg Script.modified hasked))
  have hanswer := hplain "/b"
  rw [hasked] at hanswer
  exact (hresult.trans hanswer).trans (by decide +kernel)

/-- The second of two files that were last changed at the same time gets the unit of
the first one, with its path. -/
theorem twin_named_after_the_first :
    let intake := ((Conversation.start () (twins 5 5)).run twinTools
      [.compileFile "/a" "true" .empty]).intake
    (intake.compileFile twinTools "/b" "true" .empty).1 =
        .ok ⟨"true\n", .exec, "/a", [1, 4]⟩ ∧
      (intake.compileFile twinTools.uncached "/b" "true" .empty).1 =
        .ok ⟨"true\n", .exec, "/b", [1, 4]⟩ := by
  decide +kernel +zetaReduce

end Intake
end LineShell
