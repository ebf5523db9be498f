import LineShell.Proofs.Language.Unrolling
import LineShell.Proofs.Text.Spelled

/-!
# Variables read back what was set

A text that a variable is set to becomes a number if it spells one in the range, and else
stays the text.  So no text that spells a number is ever held by a variable that a program
has set, and a value that is written out and set again is the same value.
-/

namespace LineShell

open Text

/-! ## Values and the texts that they are made of -/

namespace Value

/-- The value that its own text spells. -/
def ReadsBack (value : Value) : Prop :=
  ofText value.render = value

theorem ofText_of_int64? {s : String} {n : Int64} (hread : Numeral.int64? s.toList = some n) :
    ofText s = .integer n := by
  rw [ofText, hread]

theorem ofText_of_none {s : String} (hread : Numeral.int64? s.toList = none) :
    ofText s = .text s := by
  rw [ofText, hread]

theorem render_text (s : String) : (Value.text s).render = s := by
  rw [render]

theorem render_integer (n : Int64) : (Value.integer n).render = toString n.toInt := by
  rw [render, Numeral.integerText_eq_toString]

theorem int64?_render_integer (n : Int64) :
    Numeral.int64? (Value.integer n).render.toList = some n := by
  have hlow := n.le_toInt
  have hhigh := n.toInt_lt
  rw [render, Numeral.integerText, String.toList_ofList, Numeral.int64?,
    Numeral.signed?_integer (by norm_num; omega) (by norm_num; omega), Option.map_some,
    Int64.ofInt_toInt]

/-- What is made of a text reads back, whether the text is a number or not. -/
theorem readsBack_ofText (s : String) : (ofText s).ReadsBack := by
  unfold ReadsBack
  cases hread : Numeral.int64? s.toList with
  | some n => rw [ofText_of_int64? hread, ofText_of_int64? (int64?_render_integer n)]
  | none => rw [ofText_of_none hread, render_text, ofText_of_none hread]

/-- A numeral in the range becomes its number, which is written in the one canonical way. -/
theorem render_ofText_of_signed
    {s : String} {n : Int} (hspelled : Numeral.Signed s.toList n) (hlow : -2 ^ 63 ≤ n)
    (hhigh : n < 2 ^ 63) : (ofText s).render = toString n := by
  have hvalue : (Int64.ofInt n).toInt = n :=
    Int64.toInt_ofInt_of_le (by simpa using hlow) (by simpa using hhigh)
  have hread : Numeral.int64? s.toList = some (Int64.ofInt n) :=
    Numeral.int64?_eq_some_iff.mpr (by rwa [hvalue])
  rw [ofText_of_int64? hread, render_integer, hvalue]

theorem render_ofText_of_not_signed
    {s : String} (hother : ∀ n, Numeral.Signed s.toList n → ¬(-2 ^ 63 ≤ n ∧ n < 2 ^ 63)) :
    (ofText s).render = s := by
  have hread : Numeral.int64? s.toList = none := by
    rw [Option.eq_none_iff_forall_ne_some]
    intro n hread
    have hlow := n.le_toInt
    have hhigh := n.toInt_lt
    exact hother n.toInt (Numeral.int64?_eq_some_iff.mp hread) (by omega)
  rw [ofText_of_none hread, render_text]

end Value

/-! ## Routines that leave the variables alone -/

namespace Routine

variable {ω α β : Type}

def KeepsVars (routine : Routine ω α) : Prop :=
  ∀ streams workspace, (routine.run streams workspace).2.2.vars = workspace.vars

theorem keepsVars_pure (a : α) : (pure a : Routine ω α).KeepsVars :=
  fun _ _ => rfl

theorem keepsVars_get : (get : Routine ω (Workspace ω)).KeepsVars :=
  fun _ _ => rfl

theorem keepsVars_put (stream : Stream) (bytes : Bytes) :
    (put stream bytes : Routine ω _).KeepsVars :=
  fun _ _ => rfl

theorem keepsVars_modify
    {f : Workspace ω → Workspace ω} (hf : ∀ workspace, (f workspace).vars = workspace.vars) :
    (modify f).KeepsVars :=
  fun _ workspace => hf workspace

theorem KeepsVars.bind
    {routine : Routine ω α} {next : α → Routine ω β} (hfirst : routine.KeepsVars)
    (hnext : ∀ a, (next a).KeepsVars) : (routine >>= next).KeepsVars := by
  intro streams workspace
  change ((routine.bind next).run streams workspace).2.2.vars = workspace.vars
  rw [run_bind]
  exact (hnext _ _ _).trans (hfirst streams workspace)

end Routine

namespace Language

open Output

variable {ω : Type}

/-! ## What statements do to the variables -/

/-- The variables behind a statement that is no repetition. -/
def Stmt.assigned (env : Environment) (vars : Context) : Stmt → Context
  | .set name words => vars.insert name (Value.ofText (joinWords vars env words))
  | .unset name => vars.erase name
  | _ => vars

namespace Execute

open Routine

variable (directory : WorkingDirectory ω) (env : Environment)

theorem run_set
    (name : String) (words : List Word) (streams : Streams) (workspace : Workspace ω) :
    (stmt directory env (.set name words)).run streams workspace =
      (none, streams,
        { workspace with
          vars := workspace.vars.insert name
            (Value.ofText (joinWords workspace.vars env words)) }) := by
  rw [stmt]
  rfl

theorem keepsVars_expanded (words : List Word) :
    (expanded env words : Routine ω String).KeepsVars := by
  apply keepsVars_get.bind
  intro workspace
  exact keepsVars_pure _

theorem keepsVars_setStatus (f : Status → Status) :
    (setStatus f : Routine ω Step).KeepsVars := by
  refine (keepsVars_modify ?_).bind ?_
  · exact fun _ => rfl
  · exact fun _ => keepsVars_pure none

theorem keepsVars_echo (stream : Stream) (words : List Word) :
    (echo env stream words : Routine ω Step).KeepsVars := by
  apply (keepsVars_expanded env words).bind
  intro line
  apply (keepsVars_put stream _).bind
  intro result
  cases result <;> exact keepsVars_pure _

theorem keepsVars_changeTo (target : String) : (changeTo directory target).KeepsVars := by
  apply keepsVars_get.bind
  intro workspace
  dsimp only
  split
  · exact keepsVars_pure _
  · split
    · refine (keepsVars_modify ?_).bind ?_
      · exact fun _ => rfl
      · intro _
        split <;> exact keepsVars_pure _
    · exact keepsVars_pure _

theorem keepsVars_cd (dir : Option Word) : (cd directory env dir).KeepsVars := by
  unfold cd
  cases dir with
  | some word =>
    apply keepsVars_get.bind
    intro workspace
    exact keepsVars_changeTo directory _
  | none =>
    dsimp only
    split
    · exact keepsVars_changeTo directory _
    · exact keepsVars_pure _

/-- Only `set` and `unset` change the variables. -/
theorem run_stmt_vars
    {s : Stmt} (hflat : s.isLoop = false) (streams : Streams) (workspace : Workspace ω) :
    ((stmt directory env s).run streams workspace).2.2.vars = s.assigned env workspace.vars := by
  cases s with
  | echo stream words =>
    rw [stmt]
    exact keepsVars_echo env stream words streams workspace
  | set name words => rw [run_set, Stmt.assigned]
  | unset name =>
    rw [stmt]
    rfl
  | cd dir =>
    rw [stmt]
    exact keepsVars_cd directory env dir streams workspace
  | succeed =>
    rw [stmt]
    rfl
  | markFailed =>
    rw [stmt]
    exact keepsVars_setStatus _ streams workspace
  | exit code =>
    rw [stmt]
    exact keepsVars_setStatus _ streams workspace
  | fail words | abort words =>
    rw [stmt]
    apply (keepsVars_expanded env words).bind
    intro text
    exact keepsVars_pure _
  | loop count body => cases hflat

/-- A property that assignments keep holds behind a program that begins with it, however
far the program runs. -/
theorem run_block_vars
    {good : Context → Prop} (hgood : ∀ s vars, good vars → good (Stmt.assigned env vars s))
    (program : Program) (streams : Streams) {workspace : Workspace ω}
    (hvars : good workspace.vars) :
    good ((block directory env program).run streams workspace).2.2.vars := by
  -- a repetition runs as its copies do, so the induction is on the flat program
  rw [← run_block_unrolled]
  have hflat := program.isLoop_of_mem_unrolled
  generalize program.unrolled = flat at hflat
  induction flat generalizing streams workspace with
  | nil =>
    rw [run_block_nil]
    exact hvars
  | cons first rest ih =>
    rw [run_block_cons]
    split_ifs with hexit
    · exact hvars
    · have hfirst := run_stmt_vars directory env (hflat first List.mem_cons_self) streams workspace
      have hkept := hgood first workspace.vars hvars
      rw [← hfirst] at hkept
      generalize (stmt directory env first).run streams workspace = ended at hkept
      obtain ⟨step, streams, workspace⟩ := ended
      cases step with
      | some outcome => exact hkept
      | none => exact ih streams hkept fun s hs => hflat s (List.mem_cons_of_mem first hs)

end Execute

/-! ## Variables that programs have set -/

/-- The variables that programs lead to from none, whatever they run with. -/
inductive Reached : Context → Prop where
  | empty : Reached .empty
  | run {ω : Type} (directory : WorkingDirectory ω) (env : Environment) (program : Program)
      (streams : Streams) {workspace : Workspace ω} :
      Reached workspace.vars →
        Reached ((Execute.program directory env program).run streams workspace).2.2.vars

def AllReadBack (vars : Context) : Prop :=
  ∀ name value, vars.find? name = some value → value.ReadsBack

theorem AllReadBack.assigned
    {vars : Context} (hvars : AllReadBack vars) (env : Environment) (s : Stmt) :
    AllReadBack (s.assigned env vars) := by
  intro name value hvalue
  cases s with
  | set other words =>
    rw [Stmt.assigned, Bindings.find?_insert] at hvalue
    split_ifs at hvalue with hname
    · obtain rfl := Option.some.inj hvalue
      exact Value.readsBack_ofText _
    · exact hvars name value hvalue
  | unset other =>
    rw [Stmt.assigned, Bindings.find?_erase] at hvalue
    split_ifs at hvalue with hname
    exact hvars name value hvalue
  | _ => exact hvars name value hvalue

theorem Reached.allReadBack {vars : Context} (hreached : Reached vars) : AllReadBack vars := by
  induction hreached with
  | empty =>
    intro name value hvalue
    cases hvalue
  | run directory env program streams _ ih =>
    rw [Execute.run_program]
    exact Execute.run_block_vars directory env (fun s _ hvars => hvars.assigned env s)
      program streams ih

/-- A variable that is set is there with the text that it was set to, unless that text is a
decimal numeral, with a sign or without one, for a number of 64 bits: then it is there in
the one canonical way to write the number.  No other variable changes.  And among variables
that programs have set, one that is set to the text of another gets its very value. -/
theorem variables_read_back
    {workspace : Workspace ω} (hreached : Reached workspace.vars)
    (directory : WorkingDirectory ω) (env : Environment) (streams : Streams) :
    (∀ name words, ∃ vars,
      (Execute.stmt directory env (.set name words)).run streams workspace =
        (none, streams, { workspace with vars := vars }) ∧
      (∀ later, ∀ n : Int,
        Numeral.Signed (joinWords workspace.vars env words).toList n → -2 ^ 63 ≤ n → n < 2 ^ 63 →
          Part.expand vars later (.var name) = toString n) ∧
      (∀ later, (∀ n : Int, Numeral.Signed (joinWords workspace.vars env words).toList n →
          ¬(-2 ^ 63 ≤ n ∧ n < 2 ^ 63)) →
        Part.expand vars later (.var name) = joinWords workspace.vars env words) ∧
      ∀ other, other ≠ name → vars.find? other = workspace.vars.find? other) ∧
    ∀ name value, workspace.vars.find? name = some value → ∀ other, ∃ vars,
      (Execute.stmt directory env (.set other [[.var name]])).run streams workspace =
        (none, streams, { workspace with vars := vars }) ∧
      vars.find? other = some value := by
  constructor
  · intro name words
    refine ⟨_, Execute.run_set directory env name words streams workspace, ?_, ?_, ?_⟩
    · intro later n hspelled hlow hhigh
      rw [Part.expand, Bindings.find?_insert, if_pos rfl]
      exact Value.render_ofText_of_signed hspelled hlow hhigh
    · intro later hother
      rw [Part.expand, Bindings.find?_insert, if_pos rfl]
      exact Value.render_ofText_of_not_signed hother
    · intro other hne
      rw [Bindings.find?_insert, if_neg hne]
  · intro name value hvalue other
    refine ⟨_, Execute.run_set directory env other _ streams workspace, ?_⟩
    have htext : joinWords workspace.vars env [[.var name]] = value.render := by
      simp [joinWords, Word.expand, Part.expand, hvalue, String.join]
    rw [Bindings.find?_insert, if_pos rfl, htext]
    exact congrArg some (hreached.allReadBack name value hvalue)

theorem copied_number_stays_number :
    let sink := Sink.unlimited .binary
    let program : Program := [.set "x" [[.lit "+007"]], .loop 2 [.set "y" [[.var "x"], [.lit "a"]]]]
    let workspace := ((Execute.program WorkingDirectory.ofFiles .empty program).run
      (.ofSinks sink sink) ⟨.empty, .initial, ⟨.empty, [], 0⟩⟩).2.2
    Reached workspace.vars ∧
      workspace.vars.find? "x" = some (.integer 7) ∧ workspace.vars.find? "y" = some (.text "7 a") ∧
      ∃ vars,
        (Execute.stmt WorkingDirectory.ofFiles .empty (.set "z" [[.var "x"]])).run
            (.ofSinks sink sink) workspace =
          (none, .ofSinks sink sink, { workspace with vars := vars }) ∧
        vars.find? "z" = some (.integer 7) := by
  intro sink program workspace
  have hreached : Reached workspace.vars := .run _ _ program _ .empty
  have hnumber : workspace.vars.find? "x" = some (.integer 7) := by
    rfl
  have htext : workspace.vars.find? "y" = some (.text "7 a") := by
    rfl
  exact ⟨hreached, hnumber, htext,
    (variables_read_back hreached WorkingDirectory.ofFiles .empty (.ofSinks sink sink)).2
      "x" _ hnumber "z"⟩

end Language
end LineShell
