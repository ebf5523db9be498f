import LineShell.Proofs.Language.Rendering

/-!
# The canonical text is read back

The line on which a statement begins says what the statement is, or opens its body.  By
induction on the statements, the lines of a body leave it behind its head, and a line
that stands less deep, an empty line or the end of a script closes it.  So every
well-formed program is read back from its canonical text, in a script and as typed
input that an empty line ends.
-/

namespace LineShell
namespace Language

open Text

/-! ## The line of a statement -/

/-- What the line on which a statement begins says. -/
def Stmt.clause : Stmt → Clause
  | .loop count _ => .head count
  | stmt => .whole stmt

theorem Word.literal?_lit (text : String) : Word.literal? [.lit text] = some text := by
  simp [Word.literal?, Part.literal?, String.join]

@[simp]
theorem Written.word_comp_quoted : Written.word ∘ Written.quoted = id :=
  rfl

namespace Clause

theorem nameOf_lit (command : String) {name : String} (hname : isName name) :
    nameOf command [.lit name] = .ok name := by
  simp [nameOf, Word.literal?_lit, hname]

theorem codeOf_integerText (code : Int32) :
    codeOf [.lit (Numeral.integerText code.toInt)] = .ok code := by
  simp [codeOf, Word.literal?_lit, Numeral.integerText, Numeral.int32?_integer]

theorem countOf_naturalText (count : UInt32) :
    countOf [[.lit (Numeral.naturalText count.toNat ++ ":")]] = .ok count := by
  have hread : Numeral.word32? (trim (Numeral.naturalText count.toNat).toList) =
      some count := by
    rw [Numeral.naturalText, String.toList_ofList, trim_natural, Numeral.word32?_natural]
  simp [countOf, Word.literal?_lit, String.join, hread]

theorem ofWords_lit (command : String) (args : List Word) :
    ofWords ([.lit command] :: args) = ofCommand command args := by
  simp [ofWords, Word.literal?_lit]

theorem ofWords_heading {stmt : Stmt} (hstmt : stmt.WellFormed) :
    ofWords (stmt.heading.map Written.word) = .ok stmt.clause := by
  cases stmt with
  | echo stream words =>
    cases stream <;> simp [Stmt.heading, Written.word, ofWords_lit, ofCommand, Stmt.clause]
  | set name words =>
    simp [Stmt.heading, Written.word, ofWords_lit, ofCommand, nameOf_lit "set" hstmt.1, Except.map,
      Stmt.clause]
  | unset name =>
    have hname := nameOf_lit "unset" hstmt
    simp [Stmt.heading, Written.word, ofWords_lit, ofCommand, hname, Except.map, Stmt.clause]
  | cd dir =>
    cases dir <;> simp [Stmt.heading, Written.word, ofWords_lit, ofCommand, Stmt.clause]
  | exit code =>
    cases code with
    | none => simp [Stmt.heading, Written.word, ofWords_lit, ofCommand, Stmt.clause]
    | some code =>
      simp [Stmt.heading, Written.word, ofWords_lit, ofCommand, codeOf_integerText, Except.map,
        Stmt.clause]
  | loop count body =>
    simp [Stmt.heading, Written.word, ofWords_lit, ofCommand, countOf_naturalText, Except.map,
      Stmt.clause]
  | succeed | markFailed | fail | abort =>
    simp [Stmt.heading, Written.word, ofWords_lit, ofCommand, Stmt.clause]

end Clause

theorem Written.sound_quoted {words : List Word} (hwords : ∀ word ∈ words, Word.WellFormed word) :
    ∀ written ∈ words.map Written.quoted, Written.Sound written := by
  intro written hwritten
  obtain ⟨word, hword, rfl⟩ := List.mem_map.mp hwritten
  exact hwords word hword

theorem Written.sound_name {name : String} (hname : isName name) :
    (Written.plain name).Sound := by
  obtain ⟨c, rest, hletters, hc, hrest⟩ := isName_iff.mp hname
  refine ⟨?_, ?_⟩
  · rintro rfl
    cases hletters
  · rw [hletters]
    refine List.forall_mem_cons.mpr ⟨?_, ?_⟩
    · simp [isPlain, isNameChar_of_isNameStart hc]
    · intro d hd
      simp [isPlain, hrest d hd]

theorem isPlain_of_mem_natural {n : Nat} {c : Char} (hc : c ∈ Numeral.natural n) :
    isPlain c := by
  have hdigit : c.isDigit := Numeral.isDigit_of_mem_natural hc
  simp [isPlain, isNameChar, Char.isAlphanum, hdigit]

theorem Written.sound_integerText (n : Int) :
    (Written.plain (Numeral.integerText n)).Sound := by
  obtain ⟨first, rest, hdigits, -⟩ := Numeral.exists_natural_eq_cons n.natAbs
  refine ⟨?_, ?_⟩
  · unfold Numeral.integerText Numeral.integer
    split_ifs <;> simp [hdigits]
  · intro c hc
    rw [Numeral.integerText, String.toList_ofList, Numeral.integer] at hc
    split_ifs at hc
    · rcases List.mem_cons.mp hc with rfl | hrest
      · decide
      · exact isPlain_of_mem_natural hrest
    · exact isPlain_of_mem_natural hc

theorem Written.sound_naturalText (n : Nat) :
    (Written.plain (Numeral.naturalText n ++ ":")).Sound := by
  refine ⟨by simp, ?_⟩
  intro c hc
  rw [String.toList_append, Numeral.naturalText, String.toList_ofList] at hc
  rcases List.mem_append.mp hc with hdigit | hcolon
  · exact isPlain_of_mem_natural hdigit
  · obtain rfl := List.mem_singleton.mp hcolon
    decide

theorem Stmt.sound_row {stmt : Stmt} (hstmt : stmt.WellFormed) (depth : Nat) :
    Row.Sound ⟨depth, stmt.heading⟩ := by
  have hplain : ∀ (command : String) (args : List Written), command ≠ "" →
      command.toList.all isPlain → (∀ written ∈ args, Written.Sound written) →
      Row.Sound ⟨depth, .plain command :: args⟩ := by
    intro command args hne hcommand hargs
    refine ⟨List.cons_ne_nil _ args, List.forall_mem_cons.mpr ⟨⟨hne, ?_⟩, hargs⟩⟩
    exact List.all_eq_true.mp hcommand
  cases stmt with
  | echo stream words =>
    cases stream
    · exact hplain "echo" _ (by decide) (by decide) (Written.sound_quoted hstmt)
    · exact hplain "echoerr" _ (by decide) (by decide) (Written.sound_quoted hstmt)
  | set name words =>
    refine hplain "set" _ (by decide) (by decide) (List.forall_mem_cons.mpr ?_)
    exact ⟨Written.sound_name hstmt.1, Written.sound_quoted hstmt.2⟩
  | unset name =>
    refine hplain "unset" _ (by decide) (by decide) ?_
    simpa using Written.sound_name hstmt
  | cd dir =>
    refine hplain "cd" _ (by decide) (by decide) (Written.sound_quoted ?_)
    simpa [Stmt.WellFormed] using hstmt
  | succeed => exact hplain "true" [] (by decide) (by decide) (by simp)
  | markFailed => exact hplain "false" [] (by decide) (by decide) (by simp)
  | exit code =>
    refine hplain "exit" _ (by decide) (by decide) ?_
    intro written hwritten
    obtain ⟨code, -, rfl⟩ := List.mem_map.mp hwritten
    exact Written.sound_integerText code.toInt
  | fail words => exact hplain "fail" _ (by decide) (by decide) (Written.sound_quoted hstmt)
  | abort words => exact hplain "abort" _ (by decide) (by decide) (Written.sound_quoted hstmt)
  | loop count body =>
    refine hplain "repeat" _ (by decide) (by decide) ?_
    simpa using Written.sound_naturalText count.toNat

mutual

theorem Stmt.sound_rows {stmt : Stmt} (hstmt : stmt.WellFormed) (depth : Nat) :
    ∀ row ∈ stmt.rows depth, Row.Sound row := by
  cases stmt with
  | loop count body =>
    exact List.forall_mem_cons.mpr
      ⟨Stmt.sound_row hstmt depth, Stmt.sound_rowsOfAll hstmt.2 (depth + 1)⟩
  | _ => simpa [Stmt.rows] using Stmt.sound_row hstmt depth

theorem Stmt.sound_rowsOfAll {stmts : List Stmt} (hstmts : Stmt.AllWellFormed stmts)
    (depth : Nat) : ∀ row ∈ Stmt.rowsOfAll depth stmts, Row.Sound row := by
  cases stmts with
  | nil => simp [Stmt.rowsOfAll]
  | cons stmt rest =>
    exact List.forall_mem_append.mpr
      ⟨Stmt.sound_rows hstmts.1 depth, Stmt.sound_rowsOfAll hstmts.2 depth⟩

end

/-! ## Blocks -/

namespace Blocks

theorem settle_of_kept
    {keep : Head → Bool} {inner : Block} {outer : List (Head × Block)}
    (hkept : ∀ entry ∈ outer.head?, keep entry.1) :
    settle keep inner outer = .ok ⟨inner, outer⟩ := by
  cases outer with
  | nil => rfl
  | cons entry rest => rw [settle, if_pos (hkept entry rfl)]

/-- Blocks end up to a head that is kept. -/
theorem kept_of_settle
    {keep : Head → Bool} {inner : Block} {outer : List (Head × Block)} {blocks : Blocks}
    (hsettle : settle keep inner outer = .ok blocks) :
    ∀ entry ∈ blocks.outer.head?, keep entry.1 := by
  induction outer generalizing inner with
  | nil =>
    obtain rfl := Except.ok.inj hsettle
    simp
  | cons entry rest ih =>
    unfold settle at hsettle
    split_ifs at hsettle with hkeep hempty
    · obtain rfl := Except.ok.inj hsettle
      simpa using hkeep
    · exact ih hsettle

/-- Blocks may end in two goes, of which the second keeps fewer heads. -/
theorem settle_settle
    {keep fewer : Head → Bool} (hfewer : ∀ head, fewer head → keep head)
    {inner : Block} {outer : List (Head × Block)} {blocks : Blocks}
    (hsettle : settle keep inner outer = .ok blocks) :
    settle fewer inner outer = settle fewer blocks.inner blocks.outer := by
  induction outer generalizing inner with
  | nil =>
    obtain rfl := Except.ok.inj hsettle
    rfl
  | cons entry rest ih =>
    obtain ⟨head, block⟩ := entry
    rw [settle] at hsettle
    split_ifs at hsettle with hkeep hempty
    · obtain rfl := Except.ok.inj hsettle
      rfl
    · have hdrop : ¬ fewer head := fun h => hkeep (hfewer head h)
      rw [settle, if_neg hdrop, if_neg hempty]
      exact ih hsettle

/-- A line of an indentation goes on behind these statements, once the blocks that it
closes have ended. -/
def ReadyAt (blocks : Blocks) (indent : Nat) (stmts : List Stmt) (outer : List (Head × Block)) :
    Prop :=
  ∃ block : Block,
    settle (fun head => head.indent < indent) blocks.inner blocks.outer = .ok ⟨block, outer⟩ ∧
      block.stmts = stmts ∧ ∀ expected ∈ block.indent, indent = expected

variable {blocks : Blocks} {indent : Nat} {stmts : List Stmt} {outer : List (Head × Block)}

theorem ReadyAt.kept (hready : blocks.ReadyAt indent stmts outer) :
    ∀ entry ∈ outer.head?, entry.1.indent < indent := by
  obtain ⟨block, hsettle, -, -⟩ := hready
  simpa using kept_of_settle hsettle

theorem step_code
    (hready : blocks.ReadyAt indent stmts outer) (number : Nat) {words : List Word}
    {clause : Clause} (hclause : Clause.ofWords words = .ok clause) :
    blocks.step (.code number indent words) =
      .ok (add ⟨⟨some indent, stmts⟩, outer⟩ number indent clause) := by
  obtain ⟨block, hsettle, rfl, hindent⟩ := hready
  have hfits : indentFault? ⟨block, outer⟩ indent = none := by
    unfold indentFault?
    cases hexpected : block.indent with
    | none => rfl
    | some expected => simp only [if_pos (hindent expected hexpected)]
  simp only [step, hsettle, bind, Except.bind, hfits, hclause, add]

theorem readyAt_of_kept
    {block : Block} (hkept : ∀ entry ∈ outer.head?, entry.1.indent < indent)
    (hindent : ∀ expected ∈ block.indent, indent = expected) :
    ReadyAt ⟨block, outer⟩ indent block.stmts outer :=
  ⟨block, settle_of_kept (by simpa using hkept), rfl, hindent⟩

/-- Lines that stand less deep close the body of a repetition. -/
theorem readyAt_of_body
    {number : Nat} {count : UInt32} {body : List Stmt} (hbody : body ≠ [])
    (hkept : ∀ entry ∈ outer.head?, entry.1.indent < indent)
    (hready : blocks.ReadyAt (indent + 2) body.reverse
      ((⟨number, indent, count⟩, ⟨some indent, stmts⟩) :: outer)) :
    blocks.ReadyAt indent (.loop count body :: stmts) outer := by
  obtain ⟨block, hsettle, hstmts, -⟩ := hready
  refine ⟨⟨some indent, .loop count body :: stmts⟩, ?_, rfl, by simp⟩
  have hclosed : settle (fun head => head.indent < indent)
      (Block.push ⟨some indent, stmts⟩ (.loop count body)) outer =
        .ok ⟨⟨some indent, .loop count body :: stmts⟩, outer⟩ :=
    settle_of_kept (by simpa using hkept)
  have hnonempty : block.stmts.isEmpty = false := by
    simpa [hstmts] using hbody
  rw [settle_settle (fun head => by simp; omega) hsettle, settle, if_neg (by simp),
    if_neg (by simp [hnonempty]), hstmts, List.reverse_reverse]
  exact hclosed

end Blocks

/-! ## Statements -/

section

open Blocks

mutual

/-- The lines of a statement leave it behind the statements before it. -/
theorem Stmt.foldlM_rows
    {stmt : Stmt} (hstmt : stmt.WellFormed) {depth : Nat} (number : Nat) {blocks : Blocks}
    {stmts : List Stmt} {outer : List (Head × Block)}
    (hready : blocks.ReadyAt (2 * depth) stmts outer) :
    ∃ next, (linesOf number (stmt.rows depth)).foldlM Blocks.step blocks = .ok next ∧
      next.ReadyAt (2 * depth) (stmt :: stmts) outer := by
  have hfirst := step_code hready number (Clause.ofWords_heading hstmt)
  cases stmt with
  | loop count body =>
    have hbody : ReadyAt ⟨.empty, (⟨number, 2 * depth, count⟩, ⟨some (2 * depth), stmts⟩) :: outer⟩
        (2 * (depth + 1)) [] ((⟨number, 2 * depth, count⟩, ⟨some (2 * depth), stmts⟩) :: outer) :=
      readyAt_of_kept (by simp) (by simp [Block.empty])
    obtain ⟨next, hrest, hnext⟩ := Stmt.foldlM_rowsOfAll hstmt.2
      (number + (Row.render ⟨depth, Stmt.heading (.loop count body)⟩).count '\n') hbody
    rw [List.append_nil] at hnext
    refine ⟨next, ?_, readyAt_of_body hstmt.1 hready.kept hnext⟩
    rw [Stmt.rows, linesOf, List.foldlM_cons, Row.line, hfirst]
    exact hrest
  | _ =>
    refine ⟨⟨⟨some (2 * depth), _ :: stmts⟩, outer⟩, ?_, readyAt_of_kept hready.kept (by simp)⟩
    simp only [Stmt.rows, linesOf, List.foldlM_cons, Row.line, hfirst]
    rfl

theorem Stmt.foldlM_rowsOfAll
    {more : List Stmt} (hmore : Stmt.AllWellFormed more) {depth : Nat} (number : Nat)
    {blocks : Blocks} {stmts : List Stmt} {outer : List (Head × Block)}
    (hready : blocks.ReadyAt (2 * depth) stmts outer) :
    ∃ next, (linesOf number (Stmt.rowsOfAll depth more)).foldlM Blocks.step blocks = .ok next ∧
      next.ReadyAt (2 * depth) (more.reverse ++ stmts) outer := by
  cases more with
  | nil => exact ⟨blocks, rfl, hready⟩
  | cons stmt rest =>
    obtain ⟨middle, hfirst, hmiddle⟩ := Stmt.foldlM_rows hmore.1 number hready
    obtain ⟨next, hrest, hnext⟩ := Stmt.foldlM_rowsOfAll hmore.2
      (number + ((stmt.rows depth).flatMap Row.render).count '\n') hmiddle
    refine ⟨next, ?_, by simpa using hnext⟩
    rw [Stmt.rowsOfAll, linesOf_append, List.foldlM_append, hfirst]
    exact hrest

end

/-- Behind its lines, a program is what the innermost block holds once all blocks have
ended. -/
theorem Program.foldlM_rows {program : Program} (hprogram : program.WellFormed) :
    ∃ blocks block, (linesOf 1 (Stmt.rowsOfAll 0 program)).foldlM Blocks.step .initial =
        .ok blocks ∧
      settle (fun _ => false) blocks.inner blocks.outer = .ok ⟨block, []⟩ ∧
      block.stmts = program.reverse := by
  have hinitial : Blocks.initial.ReadyAt (2 * 0) [] [] :=
    readyAt_of_kept (by simp) (by simp [Block.empty])
  obtain ⟨blocks, hfold, block, hsettle, hstmts, -⟩ :=
    Stmt.foldlM_rowsOfAll hprogram 1 hinitial
  exact ⟨blocks, block, hfold, by simpa using hsettle, by simpa using hstmts⟩

end

theorem parse_exec_render {program : Program} (hprogram : program.WellFormed) :
    parse .exec program.render = .ok program := by
  obtain ⟨blocks, block, hfold, hsettle, hstmts⟩ := Program.foldlM_rows hprogram
  have hlines := lines_rows (Stmt.sound_rowsOfAll hprogram 0)
  simp only [parse, Program.render, String.toList_ofList, hlines, Blocks.ofLines, hfold,
    Blocks.finish, bind, Except.bind, hsettle, hstmts, List.reverse_reverse]

theorem parse_single_render {program : Program} (hprogram : program.WellFormed) :
    parse .single (program.render ++ "\n") = .ok program := by
  obtain ⟨blocks, block, hfold, hsettle, hstmts⟩ := Program.foldlM_rows hprogram
  have hlines := lines_rows_blank (Stmt.sound_rowsOfAll hprogram 0)
  have htext : (program.render ++ "\n").toList =
      (Stmt.rowsOfAll 0 program).flatMap Row.render ++ ['\n'] := by
    simp [Program.render]
  simp [parse, htext, hlines, Blocks.ofLines, List.foldlM_append, hfold, Blocks.step,
    Blocks.finish, bind, Except.bind, hsettle, hstmts, pure, Except.pure]

namespace Program

/-- The well-formed programs are those that sources spell, in either mode.  Each of them
is read back from its canonical text, and every text is what some word spells. -/
theorem well_formed_are_those_parsed :
    (∀ mode source program, parse mode source = .ok program → WellFormed program) ∧
      (∀ program, WellFormed program →
        parse .exec (render program) = .ok program ∧
          parse .single (render program ++ "\n") = .ok program) ∧
      (∀ mode program, WellFormed program ↔ ∃ source, parse mode source = .ok program) ∧
      ∀ text, ∃ word : Word, word.WellFormed ∧ word.literal? = some text ∧
        ∀ mode, ∃ source, parse mode source = .ok [.echo .stdout [word]] := by
  have hspelled : ∀ mode (program : Program), program.WellFormed →
      ∃ source, parse mode source = .ok program := by
    intro mode program hprogram
    cases mode with
    | exec => exact ⟨_, parse_exec_render hprogram⟩
    | single => exact ⟨_, parse_single_render hprogram⟩
  refine ⟨?parsed, ?readBack, ?spelled, ?texts⟩
  case parsed => exact fun mode source program hparse => wellFormed_of_parse hparse
  case readBack =>
    exact fun program hprogram =>
      ⟨parse_exec_render hprogram, parse_single_render hprogram⟩
  case spelled =>
    intro mode program
    constructor
    · exact hspelled mode program
    · rintro ⟨source, hparse⟩
      exact wellFormed_of_parse hparse
  case texts =>
    intro text
    have hword : Word.WellFormed [.lit text] := ⟨by simp, by simp, List.IsChain.singleton _⟩
    have hprogram : WellFormed [.echo .stdout [[.lit text]]] :=
      ⟨by simpa [Stmt.WellFormed] using hword, trivial⟩
    exact ⟨[.lit text], hword, Word.literal?_lit text, fun mode => hspelled mode _ hprogram⟩

theorem nested_repetitions_read_back :
    WellFormed [.set "x" [[.lit "a$\n", .var "y"]], .loop 2 [.loop 3 [.exit (some (-4))]]] ∧
      parse .single "set x \"a\\$\n\"$y\nrepeat 2:\n  repeat 3:\n    exit -4\n\n" =
        .ok [.set "x" [[.lit "a$\n", .var "y"]], .loop 2 [.loop 3 [.exit (some (-4))]]] := by
  have hprogram : WellFormed
      [.set "x" [[.lit "a$\n", .var "y"]], .loop 2 [.loop 3 [.exit (some (-4))]]] := by
    decide
  have htext : render
      [.set "x" [[.lit "a$\n", .var "y"]], .loop 2 [.loop 3 [.exit (some (-4))]]] ++ "\n" =
        "set x \"a\\$\n\"$y\nrepeat 2:\n  repeat 3:\n    exit -4\n\n" := by
    decide +kernel
  refine ⟨hprogram, ?_⟩
  rw [← htext]
  exact (well_formed_are_those_parsed.2.1 _ hprogram).2

end Program

end Language
end LineShell
