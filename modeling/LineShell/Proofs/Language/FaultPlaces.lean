import LineShell.Proofs.Language.LineEnds

/-!
# Faults point at the statement

Every line end is counted, wherever it stands, and a logical line keeps the number of the
physical line on which it begins and the width of the blanks there.  A fault of a statement
is told with both.  A missing body is told on the line behind the head's first one.
-/

namespace LineShell
namespace Language

/-! ## Physical lines -/

def AtLineStart (text : List Char) : Prop :=
  text = [] ∨ ∃ front, text = front ++ ['\n']

/-- A physical line of the text, by its number, is blanks of a width, and behind them a
character with which a statement may begin. -/
structure BeginsStatement (text : List Char) (number indent : Nat) : Prop where
  number_pos : 0 < number
  exists_line : ∃ blanks c rest, (text.splitOn '\n')[number - 1]? = some (blanks ++ c :: rest) ∧
    blanks.length = indent ∧ (∀ b ∈ blanks, b = ' ' ∨ b = '\t') ∧
    c ∉ [' ', '\t', '\n', '#']

theorem length_splitOn (text : List Char) :
    (text.splitOn '\n').length = text.count '\n' + 1 := by
  induction text with
  | nil => rfl
  | cons c rest ih =>
    rw [List.splitOn_cons_eq_if_modifyHead, List.count_cons]
    split_ifs
    · rw [List.length_cons, ih]
    · rw [List.length_modifyHead, ih, Nat.add_zero]

theorem splitOn_of_atLineStart
    {front : List Char} (hstart : AtLineStart front) (back : List Char) :
    ((front ++ back).splitOn '\n')[front.count '\n']? = (back.splitOn '\n').head? := by
  rcases hstart with rfl | ⟨before, rfl⟩
  · exact List.head?_eq_getElem?.symm
  · have hcount : (before ++ ['\n']).count '\n' = (before.splitOn '\n').length := by
      rw [length_splitOn, List.count_append]
      rfl
    rw [List.append_assoc, List.singleton_append, List.splitOn_append_cons_self, hcount,
      List.getElem?_append_right (le_refl _), Nat.sub_self, List.head?_eq_getElem?]

theorem head?_splitOn_append
    {front : List Char} (hfront : '\n' ∉ front) (back : List Char) :
    ((front ++ back).splitOn '\n').head? = (back.splitOn '\n').head?.map (front ++ ·) := by
  induction front with
  | nil => simp
  | cons c rest ih =>
    rw [List.mem_cons, not_or] at hfront
    have hc : (c == '\n') = false := by simpa using Ne.symm hfront.1
    rw [List.cons_append, List.splitOn_cons_eq_if_modifyHead, hc, if_neg Bool.false_ne_true,
      List.head?_modifyHead, ih hfront.2, Option.map_map]
    rfl

/-- A statement begins somewhere in the text: the blanks in front of it are all that stands
on its physical line before it. -/
def Opens (text : List Char) (number indent : Nat) : Prop :=
  ∃ front blanks c rest, text = front ++ blanks ++ c :: rest ∧ AtLineStart front ∧
    number = front.count '\n' + 1 ∧ blanks.length = indent ∧
    (∀ b ∈ blanks, b = ' ' ∨ b = '\t') ∧ c ∉ [' ', '\t', '\n', '#']

theorem Opens.append
    {text : List Char} {number indent : Nat} (hopens : Opens text number indent)
    (more : List Char) : Opens (text ++ more) number indent := by
  obtain ⟨front, blanks, c, rest, rfl, hplace⟩ := hopens
  exact ⟨front, blanks, c, rest ++ more, by simp, hplace⟩

theorem Opens.beginsStatement
    {text : List Char} {number indent : Nat} (hopens : Opens text number indent) :
    BeginsStatement text number indent := by
  obtain ⟨front, blanks, c, rest, rfl, hstart, rfl, hindent, hblanks, hc⟩ := hopens
  have hline : '\n' ∉ blanks ++ [c] := by
    intro hmem
    rcases List.mem_append.mp hmem with hblank | hfirst
    · exact absurd (hblanks _ hblank) (by decide)
    · rw [← List.mem_singleton.mp hfirst] at hc
      exact hc (by decide)
  obtain ⟨tail, htail⟩ : ∃ tail, (rest.splitOn '\n').head? = some tail :=
    Option.isSome_iff_exists.mp (List.isSome_head?.mpr (List.splitOn_ne_nil '\n' rest))
  refine ⟨Nat.succ_pos _, blanks, c, tail, ?_, hindent, hblanks, hc⟩
  have hbreak : front ++ blanks ++ c :: rest = front ++ ((blanks ++ [c]) ++ rest) := by simp
  rw [Nat.add_sub_cancel, hbreak, splitOn_of_atLineStart hstart, head?_splitOn_append hline, htail]
  simp

/-! ## The scan counts lines -/

namespace Scan

/-- A line that is read on begins where it began, and so does the logical line that it ends
as, which it does at a line end alone. -/
def BeginsAt (number indent : Nat) (c : Char) : OpenLine ⊕ Line → Prop
  | .inl next => next.number = number ∧ next.indent = indent
  | .inr ended => c = '\n' ∧ ∃ words, ended = .code number indent words

theorem beginsAt_readOutside (line : OpenLine) (c : Char) (word : Option OpenWord) :
    BeginsAt line.number line.indent c (match readBare line word c with
      | some line => .inl line
      | none => .inr (line.close word)) := by
  unfold readBare
  dsimp only
  split_ifs with hend
  · exact ⟨hend, ⟨_, rfl⟩⟩
  all_goals exact ⟨rfl, rfl⟩

theorem beginsAt_readLine (line : OpenLine) (c : Char) :
    BeginsAt line.number line.indent c (readLine line c) := by
  unfold readLine
  cases line.cursor with
  | gap => exact beginsAt_readOutside line c none
  | bare word => exact beginsAt_readOutside line c (some word)
  | name word letters =>
    dsimp only
    split_ifs
    · exact ⟨rfl, rfl⟩
    · exact beginsAt_readOutside line c (some (endName word letters))
  | remark =>
    dsimp only
    split_ifs with hend
    · exact ⟨hend, ⟨_, rfl⟩⟩
    · exact ⟨rfl, rfl⟩
  | escape | singleEscape | doubleName =>
    dsimp only
    split_ifs
    all_goals exact ⟨rfl, rfl⟩
  | single | double | doubleEscape => exact ⟨rfl, rfl⟩

theorem number_foldl_step (scan : Scan) (text : List Char) :
    (text.foldl step scan).number = scan.number + text.count '\n' := by
  induction text generalizing scan with
  | nil => rfl
  | cons c rest ih =>
    rw [List.foldl_cons, ih, List.count_cons, step]
    by_cases hend : c = '\n'
    · simp only [hend, if_true, beq_self_eq_true]
      omega
    · simp [hend]

/-- What the lines of a scan say of where they begin holds of the text. -/
def LinesOpen (lines : List Line) (text : List Char) : Prop :=
  ∀ number indent words, Line.code number indent words ∈ lines → Opens text number indent

theorem LinesOpen.append
    {lines : List Line} {text : List Char} (hlines : LinesOpen lines text) (more : List Char) :
    LinesOpen lines (text ++ more) :=
  fun number indent words hmem => (hlines number indent words hmem).append more

theorem LinesOpen.cons
    {lines : List Line} {text : List Char} (hlines : LinesOpen lines text)
    {number indent : Nat} (hopens : Opens text number indent) (words : List Word) :
    LinesOpen (.code number indent words :: lines) text := by
  intro other deeper others hmem
  rcases List.mem_cons.mp hmem with hsame | hold
  · obtain ⟨rfl, rfl, -⟩ := Line.code.inj hsame
    exact hopens
  · exact hlines other deeper others hold

theorem LinesOpen.blank
    {lines : List Line} {text : List Char} (hlines : LinesOpen lines text) :
    LinesOpen (.blank :: lines) text := by
  intro number indent words hmem
  rcases List.mem_cons.mp hmem with hblank | hold
  · cases hblank
  · exact hlines number indent words hold

/-- What a place says of the end of the text: blanks at the start of a physical line, a
comment, or a logical line that began somewhere before. -/
def PlaceOpens (text : List Char) : Place → Prop
  | .indent width => ∃ front blanks, text = front ++ blanks ∧ AtLineStart front ∧
      blanks.length = width ∧ ∀ b ∈ blanks, b = ' ' ∨ b = '\t'
  | .comment => True
  | .within line => Opens text line.number line.indent

theorem placeOpens_newline (text : List Char) : PlaceOpens (text ++ ['\n']) (.indent 0) :=
  ⟨text ++ ['\n'], [], by simp, Or.inr ⟨text, rfl⟩, rfl, by simp⟩

structure Located (scan : Scan) (text : List Char) : Prop where
  lines : LinesOpen scan.lines text
  place : PlaceOpens text scan.place

theorem located_initial : Located initial [] := by
  refine ⟨?_, [], [], rfl, Or.inl rfl, rfl, by simp⟩
  rintro number indent words ⟨⟩

/-- A line that begins in the text goes on in it, or ends with it. -/
theorem located_advance
    {scan : Scan} {text : List Char} {c : Char} {line : OpenLine}
    (hlines : LinesOpen scan.lines (text ++ [c]))
    (hline : Opens (text ++ [c]) line.number line.indent) :
    (advance scan line c).Located (text ++ [c]) := by
  have hread := beginsAt_readLine line c
  unfold advance
  cases hnext : readLine line c with
  | inl next =>
    rw [hnext] at hread
    rw [← hread.1, ← hread.2] at hline
    exact ⟨hlines, hline⟩
  | inr ended =>
    rw [hnext] at hread
    obtain ⟨rfl, words, rfl⟩ := hread
    exact ⟨hlines.cons hline words, placeOpens_newline text⟩

theorem Located.step
    {scan : Scan} {text : List Char} (hscan : scan.Located text)
    (hnumber : scan.number = text.count '\n' + 1) (c : Char) :
    (step scan c).Located (text ++ [c]) := by
  have hlines := hscan.lines.append [c]
  have hplace := hscan.place
  have hread : (read scan c).Located (text ++ [c]) := by
    unfold read
    cases hwhere : scan.place with
    | indent width =>
      rw [hwhere] at hplace
      obtain ⟨front, blanks, rfl, hstart, hwidth, hblanks⟩ := hplace
      dsimp only
      split_ifs with hblank hend hempty hcomment
      · refine ⟨hlines, front, blanks ++ [c], by simp, hstart, by simp [hwidth], ?_⟩
        exact List.forall_mem_append.mpr ⟨hblanks, by simpa using hblank⟩
      · subst hend
        exact ⟨hlines.blank, placeOpens_newline _⟩
      · subst hend
        exact ⟨hlines, placeOpens_newline _⟩
      · exact ⟨hlines, trivial⟩
      -- the first character of a statement: only blanks stand before it on its line
      · have hnone : blanks.count '\n' = 0 :=
          List.count_eq_zero.mpr fun hmem => absurd (hblanks _ hmem) (by decide)
        have hfirst : scan.number = front.count '\n' + 1 := by
          rw [hnumber, List.count_append, hnone, Nat.add_zero]
        have hc : c ∉ [' ', '\t', '\n', '#'] := by
          simp only [List.mem_cons, List.not_mem_nil, or_false]
          tauto
        exact located_advance hlines
          ⟨front, blanks, c, [], rfl, hstart, hfirst, hwidth, hblanks, hc⟩
    | comment =>
      dsimp only
      split_ifs with hend
      · subst hend
        exact ⟨hlines, placeOpens_newline _⟩
      · exact ⟨hlines, by rw [hwhere]; trivial⟩
    | within line =>
      rw [hwhere] at hplace
      exact located_advance hlines (Opens.append hplace [c])
  exact ⟨hread.lines, hread.place⟩

theorem located_ofChars (text : List Char) : (ofChars text).Located text := by
  induction text using List.reverseRecOn with
  | nil => exact located_initial
  | append_singleton front c ih =>
    have hnumber : (ofChars front).number = front.count '\n' + 1 := by
      rw [ofChars, number_foldl_step, Nat.add_comm]
      rfl
    rw [ofChars, List.foldl_append]
    exact ih.step hnumber c

/-- A scan ends with the lines that have ended, and with the one that is still read. -/
theorem exists_of_finish
    {scan : Scan} {found : List Line} (hfinish : scan.finish = .ok found) :
    found = scan.lines.reverse ∨ ∃ line word, scan.place = .within line ∧
      found = (line.close word :: scan.lines).reverse := by
  unfold finish at hfinish
  cases hwhere : scan.place with
  | indent | comment =>
    simp only [hwhere] at hfinish
    exact Or.inl (Except.ok.inj hfinish).symm
  | within line =>
    right
    simp only [hwhere] at hfinish
    cases hat : line.cursor with
    | gap | remark | bare | name =>
      simp only [hat] at hfinish
      exact ⟨line, _, rfl, (Except.ok.inj hfinish).symm⟩
    | escape | single | singleEscape | double | doubleEscape | doubleName =>
      simp [hat] at hfinish

end Scan

/-- Every logical line begins where its number and its indentation say. -/
theorem beginsStatement_of_lines
    {text : List Char} {found : List Line} (hlines : lines text = .ok found)
    {number indent : Nat} {words : List Word} (hmem : Line.code number indent words ∈ found) :
    BeginsStatement text number indent := by
  obtain ⟨hended, hplace⟩ := Scan.located_ofChars text
  apply Opens.beginsStatement
  rcases Scan.exists_of_finish hlines with rfl | ⟨line, word, hwithin, rfl⟩
  · exact hended number indent words (List.mem_reverse.mp hmem)
  · rw [hwithin] at hplace
    exact hended.cons hplace _ number indent words (List.mem_reverse.mp hmem)

/-! ## Which line a fault is told of -/

theorem Malformed.message_eq_missingBlock_iff (cause : Malformed) :
    cause.message = "expected an indented block" ↔ cause = .missingBlock := by
  have hunknown : ∀ text : String, "unknown command: " ++ text ≠ "expected an indented block" := by
    intro text htext
    have hstart := congrArg String.toList htext
    rw [String.toList_append] at hstart
    have hpart : "unknown command: ".toList <+: "expected an indented block".toList := ⟨_, hstart⟩
    exact absurd hpart (by decide)
  have hending : ∀ text ending : String, ending.toList ∈
      [": invalid variable name".toList, ": takes no arguments".toList] →
      text ++ ending ≠ "expected an indented block" := by
    intro text ending hending htext
    have hend := congrArg String.toList htext
    rw [String.toList_append] at hend
    have hpart : ending.toList <:+ "expected an indented block".toList := ⟨_, hend⟩
    revert hpart
    rcases List.mem_pair.mp hending with h | h
    all_goals rw [h]; decide
  constructor
  · intro hmessage
    cases cause with
    | missingBlock => rfl
    | unknownCommand name => exact absurd hmessage (hunknown name)
    | invalidName command => exact absurd hmessage (hending command _ (by simp))
    | strayArguments command => exact absurd hmessage (hending command _ (by simp))
    | _ => exact absurd hmessage (by decide)
  · rintro rfl
    rfl

namespace Clause

theorem nameOf_ne_missingBlock (command : String) (word : Word) :
    nameOf command word ≠ .error .missingBlock := by
  unfold nameOf
  split
  · split_ifs <;> simp
  · simp

theorem countOf_ne_missingBlock (words : List Word) : countOf words ≠ .error .missingBlock := by
  unfold countOf
  split
  · simp
  · split
    · split <;> simp
    · simp

theorem codeOf_ne_missingBlock (word : Word) : codeOf word ≠ .error .missingBlock := by
  unfold codeOf
  split <;> simp

theorem ofCommand_ne_missingBlock (command : String) (args : List Word) :
    ofCommand command args ≠ .error .missingBlock := by
  intro hclause
  unfold ofCommand at hclause
  split at hclause
  -- `echo` and `echoerr` take any words
  · cases hclause
  · cases hclause
  · split at hclause
    · cases hclause
    · exact nameOf_ne_missingBlock _ _ (eq_error_of_map_eq_error hclause)
  · split at hclause
    · exact nameOf_ne_missingBlock _ _ (eq_error_of_map_eq_error hclause)
    · cases hclause
  · split at hclause <;> cases hclause
  · split_ifs at hclause
    cases hclause
  · split_ifs at hclause
    cases hclause
  · split at hclause
    · cases hclause
    · exact codeOf_ne_missingBlock _ (eq_error_of_map_eq_error hclause)
    · cases hclause
  -- `fail` and `abort` too
  · cases hclause
  · cases hclause
  · exact countOf_ne_missingBlock _ (eq_error_of_map_eq_error hclause)
  · cases hclause

theorem ofWords_ne_missingBlock (words : List Word) : ofWords words ≠ .error .missingBlock := by
  intro hclause
  cases words with
  | nil => cases hclause
  | cons command args =>
    unfold ofWords at hclause
    dsimp only at hclause
    split at hclause
    · exact ofCommand_ne_missingBlock _ _ hclause
    · cases hclause

end Clause

namespace Blocks

/-- Only behind its head is a repetition open that has no statement yet. -/
theorem last_is_head_of_step
    {blocks next : Blocks} {line : Line} (hstep : blocks.step line = .ok next)
    {head : Head} {block : Block} {rest : List (Head × Block)}
    (houter : next.outer = (head, block) :: rest) (hinner : next.inner.stmts = []) :
    ∃ words, line = .code head.number head.indent words ∧
      Clause.ofWords words = .ok (.head head.count) := by
  cases line with
  | blank =>
    rw [settle_all_outer hstep] at houter
    cases houter
  | code number indent words =>
    obtain ⟨settled, clause, -, -, hclause, rfl⟩ := exists_of_step_code hstep
    cases clause with
    | whole stmt => cases hinner
    | head count =>
      obtain ⟨rfl, -⟩ := Prod.mk.inj (List.cons.inj houter).1
      exact ⟨words, rfl, hclause⟩

theorem last_is_head_of_foldlM
    {read : List Line} {blocks : Blocks} (hfold : read.foldlM step initial = .ok blocks)
    {head : Head} {block : Block} {rest : List (Head × Block)}
    (houter : blocks.outer = (head, block) :: rest) (hinner : blocks.inner.stmts = []) :
    ∃ front words, read = front ++ [.code head.number head.indent words] ∧
      Clause.ofWords words = .ok (.head head.count) := by
  rcases List.eq_nil_or_concat read with rfl | ⟨front, line, rfl⟩
  · obtain rfl := Except.ok.inj hfold
    cases houter
  · rw [List.concat_eq_append, List.foldlM_append] at hfold
    obtain ⟨middle, -, hlast⟩ := exists_of_bind_eq_ok hfold
    rw [List.foldlM_cons] at hlast
    obtain ⟨next, hstep, hdone⟩ := exists_of_bind_eq_ok hlast
    obtain rfl := Except.ok.inj hdone
    obtain ⟨words, rfl, hclause⟩ := last_is_head_of_step hstep houter hinner
    exact ⟨front, words, by simp, hclause⟩

theorem indentFault?_cases
    {blocks : Blocks} {indent : Nat} {cause : Malformed}
    (hfault : blocks.indentFault? indent = some cause) :
    cause = .unexpectedIndent ∨ cause = .unmatchedIndent := by
  unfold indentFault? at hfault
  split at hfault
  · cases hfault
  · split_ifs at hfault
    · exact Or.inr (Option.some.inj hfault).symm
    · exact Or.inl (Option.some.inj hfault).symm

/-- Why the place of a fault is told: a line is no statement, or stands at an indentation
where none may, or a repetition lacks its body. -/
theorem fault_of_step
    {blocks : Blocks} {line : Line} {cause : Malformed} {number column : Nat}
    (hstep : blocks.step line = .error (.malformed cause number column)) :
    (∃ indent words, line = .code number indent words ∧ column = indent + 1 ∧
      (Clause.ofWords words = .error cause ∨
        cause = .unexpectedIndent ∨ cause = .unmatchedIndent)) ∨
    (∃ head block rest, blocks.outer = (head, block) :: rest ∧ blocks.inner.stmts = [] ∧
      (∀ other deeper words, line = .code other deeper words → deeper ≤ head.indent) ∧
      cause = .missingBlock ∧ number = head.number + 1 ∧ column = 1) := by
  cases line with
  | blank =>
    right
    obtain ⟨head, block, rest, houter, -, hinner, hfault⟩ := exists_of_settle_eq_error hstep
    obtain ⟨rfl, rfl, rfl⟩ := ParseError.malformed.inj hfault
    refine ⟨head, block, rest, houter, hinner, ?_, rfl, rfl, rfl⟩
    rintro other deeper words ⟨⟩
  | code other indent words =>
    rcases bind_eq_error hstep with hsettle | ⟨settled, -, hadd⟩
    · right
      obtain ⟨head, block, rest, houter, hkeep, hinner, hfault⟩ :=
        exists_of_settle_eq_error hsettle
      obtain ⟨rfl, rfl, rfl⟩ := ParseError.malformed.inj hfault
      refine ⟨head, block, rest, houter, hinner, ?_, rfl, rfl, rfl⟩
      rintro other deeper words ⟨⟩
      simpa using hkeep
    · left
      split at hadd
      · rename_i fault hfault
        obtain ⟨rfl, rfl, rfl⟩ := ParseError.malformed.inj (Except.error.inj hadd)
        exact ⟨indent, words, rfl, rfl, Or.inr (indentFault?_cases hfault)⟩
      · split at hadd
        · cases hadd
        · rename_i fault hclause
          obtain ⟨rfl, rfl, rfl⟩ := ParseError.malformed.inj (Except.error.inj hadd)
          exact ⟨indent, words, rfl, rfl, Or.inl hclause⟩

end Blocks

/-- No line of a body follows a head: the next line is empty or not indented deeper, or
there is none. -/
def Bodiless (indent : Nat) (following : List Line) : Prop :=
  ∀ number deeper words, following.head? = some (.code number deeper words) → deeper ≤ indent

theorem malformed_of_parse
    {mode : Mode} {source : String} {cause : Malformed} {line column : Nat}
    (hfault : parse mode source = .error (.malformed cause line column)) :
    ∃ found, lines source.toList = .ok found ∧
      ((∃ indent words, .code line indent words ∈ found ∧ column = indent + 1 ∧
        (Clause.ofWords words = .error cause ∨
          cause = .unexpectedIndent ∨ cause = .unmatchedIndent)) ∨
      (cause = .missingBlock ∧ column = 1 ∧
        ∃ header indent words count front back, line = header + 1 ∧
          found = front ++ .code header indent words :: back ∧
          Clause.ofWords words = .ok (.head count) ∧ Bodiless indent back)) := by
  unfold parse at hfault
  split at hfault
  · rename_i found hlines
    refine ⟨found, hlines, ?_⟩
    rcases bind_eq_error hfault with hfold | ⟨blocks, hfold, hfinish⟩
    · obtain ⟨front, item, back, middle, rfl, hfront, hstep⟩ := exists_of_foldlM_eq_error hfold
      rcases Blocks.fault_of_step hstep with
        ⟨indent, words, rfl, hplace⟩ | ⟨head, block, rest, houter, hinner, hdeep, hplace⟩
      · exact Or.inl ⟨indent, words, by simp, hplace⟩
      · obtain ⟨rfl, rfl, rfl⟩ := hplace
        obtain ⟨before, words, rfl, hhead⟩ := Blocks.last_is_head_of_foldlM hfront houter hinner
        refine Or.inr ⟨rfl, rfl, head.number, head.indent, words, head.count, before,
          item :: back, rfl, by simp, hhead, ?_⟩
        intro number deeper others hnext
        exact hdeep number deeper others (Option.some.inj hnext)
    · cases mode with
      | single =>
        unfold Blocks.finish at hfinish
        split_ifs at hfinish
        cases hfinish
      | exec =>
        rcases bind_eq_error hfinish with hsettle | ⟨settled, -, hdone⟩
        · obtain ⟨head, block, rest, houter, -, hinner, hcause⟩ :=
            Blocks.exists_of_settle_eq_error hsettle
          obtain ⟨rfl, rfl, rfl⟩ := ParseError.malformed.inj hcause
          obtain ⟨before, words, rfl, hhead⟩ := Blocks.last_is_head_of_foldlM hfold houter hinner
          refine Or.inr ⟨rfl, rfl, head.number, head.indent, words, head.count, before, [], rfl,
            by simp, hhead, ?_⟩
          rintro number deeper others ⟨⟩
        · cases hdone
  · cases hfault

/-- In either mode, a fault is told of the place at which the logical line at fault begins,
every physical line before it counted; but a missing body is told of the start of the line
behind the one on which the head of the repetition begins. -/
theorem faults_point_at_statements
    {mode : Mode} {source : String} {cause : Malformed} {line column : Nat}
    (hfault : parse mode source = .error (.malformed cause line column)) :
    ∃ found, lines source.toList = .ok found ∧
      (cause.message ≠ "expected an indented block" →
        ∃ indent words, column = indent + 1 ∧ BeginsStatement source.toList line indent ∧
          .code line indent words ∈ found ∧
          (Clause.ofWords words = .error cause ∨
            cause = .unexpectedIndent ∨ cause = .unmatchedIndent)) ∧
      (cause.message = "expected an indented block" →
        column = 1 ∧ ∃ header indent words count front back, line = header + 1 ∧
          BeginsStatement source.toList header indent ∧
          found = front ++ .code header indent words :: back ∧
          Clause.ofWords words = .ok (.head count) ∧ Bodiless indent back) := by
  obtain ⟨found, hlines, hplace⟩ := malformed_of_parse hfault
  refine ⟨found, hlines, ?_, ?_⟩
  · intro hmessage
    rcases hplace with ⟨indent, words, hmem, hcolumn, hcause⟩ | ⟨rfl, -⟩
    · exact ⟨indent, words, hcolumn, beginsStatement_of_lines hlines hmem, hmem, hcause⟩
    · exact absurd rfl hmessage
  · intro hmessage
    obtain rfl := (Malformed.message_eq_missingBlock_iff cause).mp hmessage
    rcases hplace with ⟨indent, words, -, -, hclause | hindent | hindent⟩ |
      ⟨-, hcolumn, header, indent, words, count, front, back, hline, rfl, hbody⟩
    · exact absurd hclause (Clause.ofWords_ne_missingBlock words)
    · cases hindent
    · cases hindent
    · have hmem : Line.code header indent words ∈ front ++ .code header indent words :: back := by
        simp
      exact ⟨hcolumn, header, indent, words, count, front, back, hline,
        beginsStatement_of_lines hlines hmem, rfl, hbody⟩

/-- Line ends in both kinds of quotes, behind a backslash there and outside, in comments and
behind blanks are all counted; and of a head that runs over two lines the first one counts. -/
theorem faults_told_behind_every_line_end :
    let shared := "repeat 2:\n \techo 'a\nb' \"c\\\n$d\" \\\n e # it's\n# note\n \t\n"
    let wrong := shared ++ " \tunset a b"
    let bare := shared ++ "repeat \\\n 3:\n\n"
    parse .single wrong = .error (.malformed .unsetArguments 8 3) ∧
      BeginsStatement wrong.toList 8 2 ∧
      parse .exec bare = .error (.malformed .missingBlock 9 1) ∧
      ∃ indent words count, BeginsStatement bare.toList 8 indent ∧
        Clause.ofWords words = .ok (.head count) := by
  intro shared wrong bare
  have hwrong : parse .single wrong = .error (.malformed .unsetArguments 8 3) := by
    unfold wrong shared
    rfl
  have hbare : parse .exec bare = .error (.malformed .missingBlock 9 1) := by
    unfold bare shared
    rfl
  obtain ⟨found, -, hplace, -⟩ := faults_point_at_statements hwrong
  obtain ⟨indent, words, hcolumn, hbegins, -⟩ := hplace (by decide)
  obtain rfl := Nat.succ.inj hcolumn
  obtain ⟨others, -, -, hhead⟩ := faults_point_at_statements hbare
  obtain ⟨-, header, deeper, spelled, count, front, back, hline, hopens, -, hclause, -⟩ :=
    hhead rfl
  obtain rfl := Nat.succ.inj hline
  exact ⟨hwrong, hbegins, hbare, deeper, spelled, count, hopens, hclause⟩

end Language
end LineShell
