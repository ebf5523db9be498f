import LineShell.Proofs.Language.RoundTrip
import LineShell.Proofs.Language.Zone

/-!
# Typed lines and scripts

The two modes of parsing part only at the end of a source: where blocks are open, a script
ends them, and typed lines wait for an empty one.  So a source that ends with a whole line
says as a script what it says as typed lines with an empty line behind them.
-/

namespace LineShell
namespace Language

/-- The text is empty or ends with a line end that is neither quoted nor behind a backslash
outside quotes. -/
def EndsLine (text : List Char) : Prop :=
  text = [] ∨ ∃ front, text = front ++ ['\n'] ∧
    (Scan.ofChars front).zone.isOpen = false ∧ (Scan.ofChars front).zone ≠ .escaped

namespace Scan

theorem ofChars_append (front back : List Char) :
    ofChars (front ++ back) = back.foldl step (ofChars front) :=
  List.foldl_append

theorem readLine_newline
    {line : OpenLine} (hopen : line.cursor.zone.isOpen = false)
    (hescaped : line.cursor.zone ≠ .escaped) : ∃ ended, readLine line '\n' = .inr ended := by
  have houtside : ∀ word, line.cursor.openWord? = some word →
      ∃ ended, readLine line '\n' = .inr ended :=
    fun word hword => ⟨line.close word, readLine_of_openWord? hword (by decide)⟩
  cases hcursor : line.cursor with
  | gap => exact houtside none (by rw [hcursor]; rfl)
  | remark => exact ⟨line.close none, by simp [readLine, hcursor]⟩
  | bare word => exact houtside (some word) (by rw [hcursor]; rfl)
  | name word letters =>
    exact houtside (some (endName word letters)) (by rw [hcursor]; rfl)
  | escape word => simp [hcursor, Cursor.zone] at hescaped
  | single | singleEscape | double | doubleEscape | doubleName =>
    simp [hcursor, Cursor.zone, Zone.isOpen] at hopen

theorem place_step_newline
    {scan : Scan} (hopen : scan.zone.isOpen = false) (hescaped : scan.zone ≠ .escaped) :
    (step scan '\n').place = .indent 0 := by
  unfold zone at hopen hescaped
  cases hplace : scan.place with
  | indent width => simp [step, read, hplace]
  | comment => simp [step, read, hplace]
  | within line =>
    rw [hplace] at hopen hescaped
    obtain ⟨ended, hended⟩ := readLine_newline hopen hescaped
    simp [step, read, hplace, advance, hended]

theorem exists_of_endsLine {text : List Char} (hend : EndsLine text) :
    ∃ lines number, ofChars text = ⟨lines, number, .indent 0⟩ := by
  have hplace : (ofChars text).place = .indent 0 := by
    rcases hend with rfl | ⟨front, rfl, hopen, hescaped⟩
    · rfl
    · rw [ofChars_append]
      exact place_step_newline hopen hescaped
  exact ⟨(ofChars text).lines, (ofChars text).number, by rw [← hplace]⟩

end Scan

theorem lines_of_endsLine_newline {text : List Char} (hend : EndsLine text) :
    ∃ found, lines text = .ok found ∧ lines (text ++ ['\n']) = .ok (found ++ [.blank]) := by
  obtain ⟨found, number, hscan⟩ := Scan.exists_of_endsLine hend
  refine ⟨found.reverse, ?_, ?_⟩
  · rw [lines, hscan]
    rfl
  · rw [lines, Scan.ofChars_append, hscan]
    simp [Scan.step, Scan.read, Scan.finish]

namespace Blocks

theorem settle_all_outer
    {inner : Block} {outer : List (Head × Block)} {blocks : Blocks}
    (hsettle : settle (fun _ => false) inner outer = .ok blocks) : blocks.outer = [] := by
  have hkept := kept_of_settle hsettle
  cases houter : blocks.outer with
  | nil => rfl
  | cons entry rest => simp [houter] at hkept

theorem finish_single_cases (blocks : Blocks) :
    finish .single blocks = finish .exec blocks ∨
      finish .single blocks = .error (.unfinished .openBlock) := by
  obtain ⟨inner, outer⟩ := blocks
  cases outer with
  | nil => exact Or.inl rfl
  | cons entry rest => exact Or.inr rfl

/-- An empty line ends the blocks of typed lines as the end of a script does. -/
theorem step_blank_finish (blocks : Blocks) :
    (blocks.step .blank >>= finish .single) = finish .exec blocks := by
  cases hsettle : settle (fun _ => false) blocks.inner blocks.outer with
  | error e => simp only [step, finish, hsettle, bind, Except.bind]
  | ok settled =>
    simp [step, finish, hsettle, bind, Except.bind, settle_all_outer hsettle]

theorem ofLines_single_cases (lines : List Line) :
    ofLines .single lines = ofLines .exec lines ∨
      ofLines .single lines = .error (.unfinished .openBlock) := by
  unfold ofLines
  cases lines.foldlM step initial with
  | error e => exact Or.inl rfl
  | ok blocks => exact finish_single_cases blocks

theorem ofLines_single_blank (lines : List Line) :
    ofLines .single (lines ++ [.blank]) = ofLines .exec lines := by
  unfold ofLines
  rw [List.foldlM_append]
  cases lines.foldlM step initial with
  | error e => rfl
  | ok blocks =>
    refine Eq.trans ?_ (step_blank_finish blocks)
    cases hstep : blocks.step .blank <;>
      simp [hstep, bind, Except.bind, pure, Except.pure]

end Blocks

/-- Typed lines are parsed as a script is, errors included, unless they end in an open
block; and an empty line behind whole lines makes of them what they are as a script. -/
theorem typed_lines_mean_script (source : String) :
    (parse .single source = parse .exec source ∨
      (parse .single source).mapError ParseError.toCompileError =
        .error (.incomplete "block not terminated by a blank line")) ∧
      (EndsLine source.toList → parse .single (source ++ "\n") = parse .exec source) := by
  constructor
  · unfold parse
    cases lines source.toList with
    | error cause => exact Or.inl rfl
    | ok found =>
      rcases Blocks.ofLines_single_cases found with hsame | hopen
      · exact Or.inl hsame
      · right
        simp only [hopen]
        rfl
  · intro hend
    obtain ⟨found, hlines, hblank⟩ := lines_of_endsLine_newline hend
    have htext : (source ++ "\n").toList = source.toList ++ ['\n'] := by simp
    unfold parse
    rw [htext, hlines, hblank]
    exact Blocks.ofLines_single_blank found

/-- Nested blocks, the inner one of which ends with a quoted line end and a comment, are
closed by one empty line. -/
theorem typed_nested_blocks_mean_script :
    let source := "repeat 2:\n  repeat 3:\n    echo 'a\nb' # \\\n"
    EndsLine source.toList ∧ parse .single (source ++ "\n") = parse .exec source ∧
      parse .exec source =
        .ok [.loop 2 [.loop 3 [.echo .stdout [[.lit "a\nb"]]]]] := by
  intro source
  have hend : EndsLine source.toList :=
    Or.inr ⟨source.toList.dropLast, by decide +kernel, by decide +kernel, by decide +kernel⟩
  refine ⟨hend, (typed_lines_mean_script source).2 hend, ?_⟩
  unfold source
  rfl

end Language
end LineShell
