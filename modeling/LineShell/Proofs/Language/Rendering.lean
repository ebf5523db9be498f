import LineShell.Proofs.Language.WellFormed
import LineShell.Proofs.Text.Numeral

/-!
# The canonical text of a program

A program is written with one statement a line and two spaces of indentation for each
repetition around it.  Literal parts of words stand in double quotes, and what is
no part of a word, such as a command, a name or a number, stands without quotes.

The scan takes such a text apart into the words that it was written from.  What it has
read of a line decides where it stands, so the argument goes along the parts of a word,
the words of a line and the lines of the text.
-/

namespace LineShell
namespace Language

open Text

/-! ## Texts of programs -/

/-- A character as it is written in double quotes. -/
def escaped (c : Char) : List Char :=
  if c = '\\' ∨ c = '"' ∨ c = '$' then ['\\', c] else [c]

def Part.render : Part → List Char
  | .lit text => '"' :: (text.toList.flatMap escaped ++ ['"'])
  | .var name => '$' :: name.toList

/-- A word of a line with the way in which it is written. -/
inductive Written where
  | plain (text : String)
  | quoted (word : Word)

namespace Written

/-- The word that is read. -/
def word : Written → Word
  | plain text => [.lit text]
  | quoted word => word

def render : Written → List Char
  | plain text => text.toList
  | quoted word => word.flatMap Part.render

end Written

/-- A line of a text: the number of repetitions around it, and its words. -/
structure Row where
  depth : Nat
  words : List Written

def Row.render (row : Row) : List Char :=
  List.replicate (2 * row.depth) ' ' ++
    ([' '].intercalate (row.words.map Written.render) ++ ['\n'])

namespace Stmt

/-- The words of the line on which a statement begins. -/
def heading : Stmt → List Written
  | .echo .stdout words => .plain "echo" :: words.map .quoted
  | .echo .stderr words => .plain "echoerr" :: words.map .quoted
  | .set name words => .plain "set" :: .plain name :: words.map .quoted
  | .unset name => [.plain "unset", .plain name]
  | .cd dir => .plain "cd" :: dir.toList.map .quoted
  | .succeed => [.plain "true"]
  | .markFailed => [.plain "false"]
  | .exit code =>
    .plain "exit" :: code.toList.map fun code => .plain (Numeral.integerText code.toInt)
  | .fail words => .plain "fail" :: words.map .quoted
  | .abort words => .plain "abort" :: words.map .quoted
  | .loop count _ => [.plain "repeat", .plain (Numeral.naturalText count.toNat ++ ":")]

mutual

/-- The lines of a statement at a depth. -/
def rows (depth : Nat) : Stmt → List Row
  | .loop count body => ⟨depth, heading (.loop count body)⟩ :: rowsOfAll (depth + 1) body
  | stmt => [⟨depth, stmt.heading⟩]

def rowsOfAll (depth : Nat) : List Stmt → List Row
  | [] => []
  | stmt :: rest => stmt.rows depth ++ rowsOfAll depth rest

end

end Stmt

/-- The canonical text of a program. -/
def Program.render (program : Program) : String :=
  String.ofList ((Stmt.rowsOfAll 0 program).flatMap Row.render)

example : Program.render [.set "x" [[.lit "a$b", .var "y"]], .loop 2 [.exit none]] =
    "set x \"a\\$b\"$y\nrepeat 2:\n  exit\n" := by
  decide +kernel

/-! ## Within a line -/

namespace OpenWord

theorem addText_addText (word : OpenWord) (first second : String) :
    (word.addText first).addText second = word.addText (first ++ second) := by
  cases word with
  | nil => rfl
  | cons last rest => cases last <;> simp [addText, String.append_assoc]

theorem foldl_addChar_addText (word : OpenWord) (text : String) (more : List Char) :
    more.foldl addChar (word.addText text) = word.addText (text ++ String.ofList more) := by
  induction more generalizing text with
  | nil => simp
  | cons c rest ih =>
    rw [List.foldl_cons, addChar_eq_addText, addText_addText, ih, String.append_assoc]
    congr 2
    simp

/-- Text behind no literal part is a part of its own. -/
theorem addText_eq_cons
    {word : OpenWord} {text : String} (hapart : ∀ last ∈ word.head?, last.Apart (.lit text)) :
    word.addText text = .lit text :: word := by
  cases word with
  | nil => rfl
  | cons last rest =>
    cases last with
    | lit other => exact absurd ⟨rfl, rfl⟩ (hapart (.lit other) rfl)
    | var name => rfl

end OpenWord

/-- The word, or none, that ends where a place outside quotes does. -/
def Cursor.openWord? : Cursor → Option (Option OpenWord)
  | .gap => some none
  | .bare word => some (some word)
  | .name word letters => some (some (Scan.endName word letters))
  | _ => none

namespace Scan

/-- The line after a text that does not end it. -/
def readOn (line : OpenLine) (text : List Char) : Option OpenLine :=
  text.foldlM (fun line c => (readLine line c).getLeft?) line

theorem readOn_cons (line : OpenLine) (c : Char) (text : List Char) :
    readOn line (c :: text) = (readLine line c).getLeft?.bind (readOn · text) :=
  rfl

theorem readOn_append (line : OpenLine) (first second : List Char) :
    readOn line (first ++ second) = (readOn line first).bind (readOn · second) :=
  List.foldlM_append

/-- What stands in no name ends the word behind a dollar sign. -/
theorem readLine_of_openWord?
    {line : OpenLine} {word : Option OpenWord} (hword : line.cursor.openWord? = some word)
    {c : Char} (hc : isNameChar c = false) :
    readLine line c = match readBare line word c with
      | some next => .inl next
      | none => .inr (line.close word) := by
  unfold readLine
  cases hplace : line.cursor with
  | gap | bare =>
    rw [hplace] at hword
    obtain rfl := Option.some.inj hword
    rfl
  | name open' letters =>
    have hends : extendsName letters c = false := by
      rw [← Bool.not_eq_true] at hc ⊢
      exact mt isNameChar_of_extendsName hc
    rw [hplace] at hword
    obtain rfl := Option.some.inj hword
    simp only [hends]
    rfl
  | remark | escape | single | singleEscape | double | doubleEscape | doubleName =>
    simp [hplace, Cursor.openWord?] at hword

theorem readOn_escaped (line : OpenLine) (word : OpenWord) (c : Char) :
    readOn (line.goto (.double word)) (escaped c) =
      some (line.goto (.double (word.addChar c))) := by
  unfold escaped
  split_ifs with hspecial
  · rcases hspecial with rfl | rfl | rfl <;> rfl
  · have hread : readDouble word c = .double (word.addChar c) := by
      simp only [not_or] at hspecial
      rw [readDouble, if_neg hspecial.2.1, if_neg hspecial.1, if_neg hspecial.2.2]
    rw [← hread]
    rfl

theorem readOn_flatMap_escaped (line : OpenLine) (word : OpenWord) (text : List Char) :
    readOn (line.goto (.double word)) (text.flatMap escaped) =
      some (line.goto (.double (text.foldl OpenWord.addChar word))) := by
  induction text generalizing word with
  | nil => rfl
  | cons c rest ih =>
    rw [List.flatMap_cons, readOn_append, readOn_escaped, Option.bind_some, ih]
    rfl

/-- A literal part is read to the quote behind it. -/
theorem readOn_lit
    {line : OpenLine} {word : Option OpenWord} (hword : line.cursor.openWord? = some word)
    {text : String} (hapart : ∀ last ∈ (word.getD []).head?, last.Apart (.lit text)) :
    readOn line (Part.lit text).render =
      some (line.goto (.bare (.lit text :: word.getD []))) := by
  have hopen : readLine line '"' = .inl (line.goto (.double ((word.getD []).addText ""))) := by
    rw [readLine_of_openWord? hword (by decide)]
    rfl
  have hclose : ∀ open' : OpenWord,
      readOn (line.goto (.double open')) ['"'] = some (line.goto (.bare open')) :=
    fun _ => rfl
  have htext : text.toList.foldl OpenWord.addChar ((word.getD []).addText "") =
      .lit text :: word.getD [] := by
    rw [OpenWord.foldl_addChar_addText, String.empty_append, String.ofList_toList,
      OpenWord.addText_eq_cons hapart]
  rw [Part.render, readOn_cons, hopen]
  change readOn (line.goto _) _ = _
  rw [readOn_append, readOn_flatMap_escaped, htext]
  exact hclose _

theorem readOn_nameChars
    (line : OpenLine) (word : OpenWord) {letters : List Char} (hletters : letters ≠ [])
    {more : List Char} (hmore : ∀ c ∈ more, isNameChar c) :
    readOn (line.goto (.name word letters)) more =
      some (line.goto (.name word (more.reverse ++ letters))) := by
  induction more generalizing letters with
  | nil => rfl
  | cons c rest ih =>
    obtain ⟨hc, hrest⟩ := List.forall_mem_cons.mp hmore
    have hextends : extendsName letters c := by
      simpa [extendsName, hletters] using hc
    have hread : readLine (line.goto (.name word letters)) c =
        .inl (line.goto (.name word (c :: letters))) := by
      simp only [readLine, OpenLine.goto, if_pos hextends]
    rw [readOn_cons, hread]
    change readOn (line.goto _) _ = _
    rw [ih (List.cons_ne_nil c letters) hrest, List.reverse_cons, List.append_assoc]
    rfl

/-- The end of a name shows only behind it, so the scan still stands in the name. -/
theorem readOn_var
    {line : OpenLine} {word : Option OpenWord} (hword : line.cursor.openWord? = some word)
    {name : String} (hname : isName name) :
    readOn line (Part.var name).render =
      some (line.goto (.name (word.getD []) name.toList.reverse)) := by
  have hdollar : readLine line '$' = .inl (line.goto (.name (word.getD []) [])) := by
    rw [readLine_of_openWord? hword (by decide)]
    rfl
  obtain ⟨c, rest, hletters, hc, hrest⟩ := isName_iff.mp hname
  have hfirst : readLine (line.goto (.name (word.getD []) [])) c =
      .inl (line.goto (.name (word.getD []) [c])) := by
    simp only [readLine, OpenLine.goto, extendsName, List.isEmpty_nil, if_true, hc]
  rw [Part.render, readOn_cons, hdollar, hletters]
  change readOn (line.goto _) _ = _
  rw [readOn_cons, hfirst]
  change readOn (line.goto _) _ = _
  rw [readOn_nameChars line _ (List.cons_ne_nil c []) hrest, List.reverse_cons]

theorem readOn_part
    {line : OpenLine} {word : Option OpenWord} (hword : line.cursor.openWord? = some word)
    {part : Part} (hname : ∀ name, part = .var name → isName name)
    (hapart : ∀ last ∈ (word.getD []).head?, last.Apart part) :
    ∃ cursor, readOn line part.render = some (line.goto cursor) ∧
      cursor.openWord? = some (some (part :: word.getD [])) := by
  cases part with
  | lit text => exact ⟨_, readOn_lit hword hapart, rfl⟩
  | var name =>
    refine ⟨_, readOn_var hword (hname name rfl), ?_⟩
    obtain ⟨c, rest, hletters, -, -⟩ := isName_iff.mp (hname name rfl)
    have hne : name.toList.reverse.isEmpty = false := by
      simp [hletters]
    simp [Cursor.openWord?, endName, hne, OpenWord.addVar]

/-- The parts of a word collect one after the other. -/
theorem readOn_parts
    (line : OpenLine) {last : Part} {word : OpenWord}
    (hword : line.cursor.openWord? = some (some (last :: word)))
    {parts : List Part} (hnames : ∀ name, Part.var name ∈ parts → isName name)
    (hapart : (last :: parts).IsChain Part.Apart) :
    ∃ cursor, readOn line (parts.flatMap Part.render) = some (line.goto cursor) ∧
      cursor.openWord? = some (some (parts.reverse ++ last :: word)) := by
  induction parts generalizing line last word with
  | nil => exact ⟨line.cursor, rfl, hword⟩
  | cons part rest ih =>
    obtain ⟨hbeside, hrest⟩ := List.isChain_cons_cons.mp hapart
    have hname : ∀ name, part = .var name → isName name :=
      fun name hvar => hnames name (hvar ▸ List.mem_cons_self)
    obtain ⟨middle, hpart, hmiddle⟩ := readOn_part hword hname (by simpa using hbeside)
    obtain ⟨cursor, hread, hcursor⟩ := ih (line.goto middle) hmiddle
      (fun name hmem => hnames name (List.mem_cons_of_mem part hmem)) hrest
    refine ⟨cursor, ?_, by simpa using hcursor⟩
    rw [List.flatMap_cons, readOn_append, hpart]
    exact hread

theorem readOn_word
    {line : OpenLine} (hgap : line.cursor = .gap) {word : Word} (hword : word.WellFormed) :
    ∃ cursor, readOn line (word.flatMap Part.render) = some (line.goto cursor) ∧
      cursor.openWord? = some (some word.reverse) := by
  have hopen : line.cursor.openWord? = some none := by
    rw [hgap]
    rfl
  cases word with
  | nil => exact absurd rfl hword.ne_nil
  | cons part rest =>
    have hname : ∀ name, part = .var name → isName name :=
      fun name hvar => hword.isName_of_var name (hvar ▸ List.mem_cons_self)
    obtain ⟨middle, hpart, hmiddle⟩ := readOn_part hopen hname (by simp)
    obtain ⟨cursor, hread, hcursor⟩ := readOn_parts (line.goto middle) hmiddle
      (fun name hmem => hword.isName_of_var name (List.mem_cons_of_mem part hmem)) hword.apart
    refine ⟨cursor, ?_, by simpa using hcursor⟩
    rw [List.flatMap_cons, readOn_append, hpart]
    exact hread

end Scan

/-! ## Words without quotes -/

/-- Whether a character may stand without quotes wherever it is. -/
def isPlain (c : Char) : Bool :=
  isNameChar c || c == '-' || c == ':'

def Written.Sound : Written → Prop
  | .plain text => text ≠ "" ∧ ∀ c ∈ text.toList, isPlain c
  | .quoted word => word.WellFormed

namespace Scan

theorem readLine_plain
    {line : OpenLine} (word : Option OpenWord)
    (hcursor : line.cursor = word.elim .gap .bare) {c : Char} (hc : isPlain c) :
    readLine line c = .inl (line.goto (.bare ((word.getD []).addChar c))) := by
  have hother : ∀ special, isPlain special = false → c ≠ special := by
    rintro special hspecial rfl
    exact absurd hc (by simp [hspecial])
  have hbare : readBare line word c = some (line.goto (.bare ((word.getD []).addChar c))) := by
    unfold readBare
    rw [if_neg (hother '\n' (by decide)),
      if_neg (not_or.mpr ⟨hother ' ' (by decide), hother '\t' (by decide)⟩),
      if_neg (fun h => hother '#' (by decide) h.1), if_neg (hother '\\' (by decide))]
    dsimp only
    rw [if_neg (hother '\'' (by decide)), if_neg (hother '"' (by decide)),
      if_neg (hother '$' (by decide))]
  cases word with
  | none => simp only [readLine, hcursor, Option.elim_none, hbare]
  | some open' => simp only [readLine, hcursor, Option.elim_some, hbare]

theorem readOn_plain
    (line : OpenLine) (word : OpenWord) {text : List Char} (htext : ∀ c ∈ text, isPlain c) :
    readOn (line.goto (.bare word)) text =
      some (line.goto (.bare (text.foldl OpenWord.addChar word))) := by
  induction text generalizing word with
  | nil => rfl
  | cons c rest ih =>
    obtain ⟨hc, hrest⟩ := List.forall_mem_cons.mp htext
    rw [readOn_cons, readLine_plain (some word) rfl hc]
    exact ih (word.addChar c) hrest

/-- A written word is the one that is open behind it. -/
theorem readOn_written
    {line : OpenLine} (hgap : line.cursor = .gap) {written : Written}
    (hwritten : written.Sound) :
    ∃ cursor, readOn line written.render = some (line.goto cursor) ∧
      cursor.openWord? = some (some written.word.reverse) := by
  cases written with
  | quoted word => exact readOn_word hgap hwritten
  | plain text =>
    obtain ⟨hne, hplain⟩ := hwritten
    refine ⟨.bare [.lit text], ?_, rfl⟩
    rw [Written.render]
    cases htext : text.toList with
    | nil => exact absurd (String.toList_eq_nil_iff.mp htext) hne
    | cons c rest =>
      rw [htext] at hplain
      obtain ⟨hc, hrest⟩ := List.forall_mem_cons.mp hplain
      have hword : rest.foldl OpenWord.addChar (OpenWord.addChar [] c) = [.lit text] := by
        rw [OpenWord.addChar_eq_addText, OpenWord.foldl_addChar_addText]
        simp [OpenWord.addText, ← String.toList_inj, htext]
      rw [readOn_cons, readLine_plain none (by simpa using hgap) hc, ← hword]
      exact readOn_plain line _ hrest

/-- Every blank between two words finishes the one in front of it. -/
theorem readOn_words
    (line : OpenLine) (hgap : line.cursor = .gap) {words : List Written} (hne : words ≠ [])
    (hwords : ∀ written ∈ words, Written.Sound written) :
    ∃ next word, readOn line ([' '].intercalate (words.map Written.render)) = some next ∧
      next.cursor.openWord? = some word ∧
      next.endWord word =
        { line with words := (words.map Written.word).reverse ++ line.words } := by
  induction words generalizing line with
  | nil => exact absurd rfl hne
  | cons first rest ih =>
    obtain ⟨hfirst, hrest⟩ := List.forall_mem_cons.mp hwords
    obtain ⟨cursor, hread, hcursor⟩ := readOn_written hgap hfirst
    have hended : (line.goto cursor).endWord (some first.word.reverse) =
        { line with words := first.word :: line.words } := by
      simp [OpenLine.endWord, OpenLine.goto, OpenWord.close, hgap]
    cases rest with
    | nil =>
      refine ⟨line.goto cursor, some first.word.reverse, ?_, hcursor, hended⟩
      rw [List.map_singleton, List.intercalate_singleton]
      exact hread
    | cons second rest =>
      have hblank : readLine (line.goto cursor) ' ' =
          .inl { line with words := first.word :: line.words } := by
        have hplace : (line.goto cursor).cursor.openWord? = some (some first.word.reverse) :=
          hcursor
        rw [readLine_of_openWord? hplace (by decide), ← hended]
        rfl
      obtain ⟨next, word, hmore, hnext, hdone⟩ :=
        ih { line with words := first.word :: line.words } hgap
          (List.cons_ne_nil second rest) hrest
      refine ⟨next, word, ?_, hnext, ?_⟩
      · rw [List.map_cons, List.map_cons, List.intercalate_cons_cons, List.append_assoc,
          readOn_append, hread, Option.bind_some, List.singleton_append, readOn_cons, hblank]
        exact hmore
      · rw [hdone]
        simp

end Scan

/-! ## Lines of a text -/

structure Row.Sound (row : Row) : Prop where
  ne_nil : row.words ≠ []
  words : ∀ written ∈ row.words, Written.Sound written

/-- The logical line that a written line is, if it begins at a physical line. -/
def Row.line (row : Row) (number : Nat) : Line :=
  .code number (2 * row.depth) (row.words.map Written.word)

def linesOf : Nat → List Row → List Line
  | _, [] => []
  | number, row :: rest => row.line number :: linesOf (number + row.render.count '\n') rest

theorem linesOf_append (number : Nat) (first second : List Row) :
    linesOf number (first ++ second) =
      linesOf number first ++
        linesOf (number + (first.flatMap Row.render).count '\n') second := by
  induction first generalizing number with
  | nil => simp [linesOf]
  | cons row rest ih =>
    simp only [List.cons_append, linesOf, ih, List.flatMap_cons, List.count_append,
      Nat.add_assoc]

/-- No written word looks like indentation, an empty line or a comment. -/
theorem Written.Sound.exists_render_eq_cons
    {written : Written} (hwritten : written.Sound) :
    ∃ c rest, written.render = c :: rest ∧ c ∉ [' ', '\t', '\n', '#'] := by
  cases written with
  | plain text =>
    obtain ⟨hne, hplain⟩ := hwritten
    cases htext : text.toList with
    | nil => exact absurd (String.toList_eq_nil_iff.mp htext) hne
    | cons c rest =>
      refine ⟨c, rest, htext, ?_⟩
      intro hspecial
      have hc : isPlain c := hplain c (htext ▸ List.mem_cons_self)
      simp only [List.mem_cons, List.not_mem_nil, or_false] at hspecial
      rcases hspecial with rfl | rfl | rfl | rfl <;> exact absurd hc (by decide)
  | quoted word =>
    cases word with
    | nil => exact absurd rfl hwritten.ne_nil
    | cons part rest =>
      cases part with
      | lit text => exact ⟨'"', _, rfl, by decide⟩
      | var name => exact ⟨'$', _, rfl, by decide⟩

namespace Scan

theorem foldl_step_replicate (lines : List Line) (number width count : Nat) :
    (List.replicate count ' ').foldl step ⟨lines, number, .indent width⟩ =
      ⟨lines, number, .indent (width + count)⟩ := by
  induction count generalizing width with
  | zero => rfl
  | succ count ih =>
    rw [List.replicate_succ, List.foldl_cons, Nat.add_comm count 1, ← Nat.add_assoc]
    exact ih (width + 1)

theorem step_indent
    (lines : List Line) (number width : Nat) {c : Char} (hc : c ∉ [' ', '\t', '\n', '#']) :
    step ⟨lines, number, .indent width⟩ c =
      step ⟨lines, number, .within ⟨number, width, [], .gap⟩⟩ c := by
  simp only [List.mem_cons, List.not_mem_nil, or_false, not_or] at hc
  obtain ⟨hblank, htab, hend, hremark⟩ := hc
  simp [step, read, hblank, htab, hend, hremark, advance]

theorem foldl_step_within
    {line next : OpenLine} {text : List Char} (hread : readOn line text = some next)
    (lines : List Line) (number : Nat) :
    text.foldl step ⟨lines, number, .within line⟩ =
      ⟨lines, number + text.count '\n', .within next⟩ := by
  induction text generalizing line number with
  | nil =>
    obtain rfl := Option.some.inj hread
    rfl
  | cons c rest ih =>
    rw [readOn_cons] at hread
    cases hc : readLine line c with
    | inr ended => simp [hc] at hread
    | inl middle =>
      rw [hc] at hread
      have hstep : step ⟨lines, number, .within line⟩ c =
          ⟨lines, number + if c = '\n' then 1 else 0, .within middle⟩ := by
        simp only [step, read, advance, hc]
        split_ifs <;> rfl
      rw [List.foldl_cons, hstep, ih hread, List.count_cons]
      simp only [beq_iff_eq]
      congr 1
      omega

/-- A written line is one logical line. -/
theorem foldl_step_row
    {row : Row} (hrow : row.Sound) (lines : List Line) (number : Nat) :
    row.render.foldl step ⟨lines, number, .indent 0⟩ =
      ⟨row.line number :: lines, number + row.render.count '\n', .indent 0⟩ := by
  obtain ⟨next, word, hread, hword, hended⟩ :=
    readOn_words ⟨number, 2 * row.depth, [], .gap⟩ rfl hrow.ne_nil hrow.words
  generalize htext : [' '].intercalate (row.words.map Written.render) = text at hread
  have hopen : text.foldl step ⟨lines, number, .indent (2 * row.depth)⟩ =
      ⟨lines, number + text.count '\n', .within next⟩ := by
    obtain ⟨c, rest, hcons, hc⟩ : ∃ c rest, text = c :: rest ∧ c ∉ [' ', '\t', '\n', '#'] := by
      cases hwords : row.words with
      | nil => exact absurd hwords hrow.ne_nil
      | cons first others =>
        obtain ⟨c, rest, hfirst, hc⟩ :=
          (hrow.words first (hwords ▸ List.mem_cons_self)).exists_render_eq_cons
        rw [← htext, hwords, List.map_cons, hfirst]
        cases others with
        | nil => exact ⟨c, rest, List.intercalate_singleton, hc⟩
        | cons => exact ⟨c, _, List.intercalate_cons_cons, hc⟩
    have hwithin := foldl_step_within hread lines number
    rw [hcons, List.foldl_cons] at hwithin ⊢
    rw [step_indent lines number _ hc]
    exact hwithin
  have hclose : step ⟨lines, number + text.count '\n', .within next⟩ '\n' =
      ⟨row.line number :: lines, number + text.count '\n' + 1, .indent 0⟩ := by
    have hend : readLine next '\n' = .inr (next.close word) :=
      readLine_of_openWord? hword (by decide)
    have hline : next.close word = row.line number := by
      have hnumber : next.number = number := congrArg OpenLine.number hended
      have hindent : next.indent = 2 * row.depth := congrArg OpenLine.indent hended
      rw [OpenLine.close, hended, hnumber, hindent, Row.line, List.append_nil,
        List.reverse_reverse]
    simp [step, read, advance, hend, hline]
  have hcount : row.render.count '\n' = text.count '\n' + 1 := by
    rw [Row.render, htext, List.count_append, List.count_append]
    simp [List.count_replicate]
  rw [hcount, Row.render, htext, List.foldl_append, foldl_step_replicate, Nat.zero_add,
    List.foldl_append, hopen]
  exact hclose

theorem foldl_step_rows
    {rows : List Row} (hrows : ∀ row ∈ rows, Row.Sound row) (lines : List Line) (number : Nat) :
    (rows.flatMap Row.render).foldl step ⟨lines, number, .indent 0⟩ =
      ⟨(linesOf number rows).reverse ++ lines,
        number + (rows.flatMap Row.render).count '\n', .indent 0⟩ := by
  induction rows generalizing lines number with
  | nil => rfl
  | cons row rest ih =>
    obtain ⟨hrow, hrest⟩ := List.forall_mem_cons.mp hrows
    rw [List.flatMap_cons, List.foldl_append, foldl_step_row hrow, ih hrest]
    simp [linesOf, List.count_append, Nat.add_assoc]

end Scan

theorem lines_rows {rows : List Row} (hrows : ∀ row ∈ rows, Row.Sound row) :
    lines (rows.flatMap Row.render) = .ok (linesOf 1 rows) := by
  rw [lines, Scan.ofChars, Scan.initial, Scan.foldl_step_rows hrows]
  simp [Scan.finish]

/-- An empty line stays one behind written lines. -/
theorem lines_rows_blank {rows : List Row} (hrows : ∀ row ∈ rows, Row.Sound row) :
    lines (rows.flatMap Row.render ++ ['\n']) = .ok (linesOf 1 rows ++ [.blank]) := by
  rw [lines, Scan.ofChars, Scan.initial, List.foldl_append, Scan.foldl_step_rows hrows]
  simp [Scan.step, Scan.read, Scan.finish]

end Language
end LineShell
