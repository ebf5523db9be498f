import LineShell.Proofs.Language.Layout

/-!
# A line end finishes a continuation

A source that ends behind a backslash is an unfinished continuation.  One line end behind
it is what the backslash continues over, and then the source ends where a line may end.
So a line that is a continuation says, once it has its line end, what it says up to the
backslash.
-/

namespace LineShell
namespace Language

namespace Scan

theorem finish_eq_openContinuation_iff (scan : Scan) :
    scan.finish = .error .openContinuation ↔ scan.zone = .escaped := by
  unfold finish zone
  cases scan.place with
  | indent width => simp
  | comment => simp
  | within line => cases hcursor : line.cursor <;> simp [hcursor, Cursor.zone]

/-! ## Lines that are one physical line -/

/-- Nothing but the first physical line was read so far. -/
structure OnFirstLine (scan : Scan) : Prop where
  lines_eq : scan.lines = []
  number_eq : scan.number = 1
  begun_eq : ∀ line, scan.place = .within line → line.number = 1

theorem advance_number (scan : Scan) (line : OpenLine) (c : Char) :
    (advance scan line c).number = scan.number := by
  unfold advance
  cases readLine line c <;> rfl

theorem read_number (scan : Scan) (c : Char) : (read scan c).number = scan.number := by
  unfold read
  cases scan.place with
  | indent width =>
    dsimp only
    split_ifs
    · rfl
    · rfl
    · rfl
    · rfl
    · exact advance_number scan _ c
  | comment =>
    dsimp only
    split_ifs
    · rfl
    · rfl
  | within line => exact advance_number scan line c

theorem readBare_of_ne
    {c : Char} (hc : c ≠ '\n') (line : OpenLine) (word : Option OpenWord) :
    ∃ next, readBare line word c = some next ∧ next.number = line.number := by
  unfold readBare
  rw [if_neg hc]
  dsimp only
  split_ifs
  all_goals exact ⟨_, rfl, rfl⟩

theorem readOutside_of_ne
    {c : Char} (hc : c ≠ '\n') (line : OpenLine) (word : Option OpenWord) :
    ∃ next, (match readBare line word c with
      | some line => .inl line
      | none => .inr (line.close word) : OpenLine ⊕ Line) = .inl next ∧
        next.number = line.number := by
  obtain ⟨next, hnext, hnumber⟩ := readBare_of_ne hc line word
  exact ⟨next, by rw [hnext], hnumber⟩

theorem readLine_of_ne {c : Char} (hc : c ≠ '\n') (line : OpenLine) :
    ∃ next, readLine line c = .inl next ∧ next.number = line.number := by
  unfold readLine
  cases line.cursor with
  | gap => exact readOutside_of_ne hc line none
  | bare word => exact readOutside_of_ne hc line (some word)
  | name word letters =>
    dsimp only
    split_ifs
    · exact ⟨_, rfl, rfl⟩
    · exact readOutside_of_ne hc line (some (endName word letters))
  | remark | escape =>
    dsimp only
    rw [if_neg hc]
    exact ⟨_, rfl, rfl⟩
  | single | double | doubleEscape => exact ⟨_, rfl, rfl⟩
  | singleEscape | doubleName =>
    dsimp only
    split_ifs
    all_goals exact ⟨_, rfl, rfl⟩

theorem OnFirstLine.advance
    {scan : Scan} (hscan : scan.OnFirstLine) {line : OpenLine} (hline : line.number = 1)
    {c : Char} (hc : c ≠ '\n') : (advance scan line c).OnFirstLine := by
  obtain ⟨next, hnext, hnumber⟩ := readLine_of_ne hc line
  unfold Scan.advance
  rw [hnext]
  refine ⟨hscan.lines_eq, hscan.number_eq, ?_⟩
  rintro begun ⟨⟩
  exact hnumber.trans hline

theorem OnFirstLine.step
    {scan : Scan} (hscan : scan.OnFirstLine) {c : Char} (hc : c ≠ '\n') :
    (step scan c).OnFirstLine := by
  have hsame : Scan.step scan c = read scan c := by
    rw [Scan.step, if_neg hc, ← read_number scan c]
  rw [hsame]
  unfold read
  cases hplace : scan.place with
  | indent width =>
    dsimp only
    split_ifs with hblank hcomment
    · exact ⟨hscan.lines_eq, hscan.number_eq, by rintro line ⟨⟩⟩
    · exact ⟨hscan.lines_eq, hscan.number_eq, by rintro line ⟨⟩⟩
    · exact hscan.advance hscan.number_eq hc
  | comment =>
    dsimp only
    rw [if_neg hc]
    exact hscan
  | within line => exact hscan.advance (hscan.begun_eq line hplace) hc

theorem onFirstLine_ofChars {text : List Char} (htext : '\n' ∉ text) :
    (ofChars text).OnFirstLine := by
  have hrun : ∀ scan : Scan, scan.OnFirstLine → (text.foldl Scan.step scan).OnFirstLine := by
    induction text with
    | nil => exact fun _ hscan => hscan
    | cons c rest ih =>
      rw [List.mem_cons, not_or] at htext
      exact fun scan hscan => ih htext.2 _ (hscan.step (Ne.symm htext.1))
  exact hrun initial ⟨rfl, rfl, fun line hplace => by cases hplace⟩

/-! ## The backslash at the end -/

/-- The zone behind a backslash is reached from outside of quotes alone. -/
theorem exists_of_zone_escaped {text : List Char} (hescaped : Zone.ofChars text = .escaped) :
    ∃ front fresh, text = front ++ ['\\'] ∧ Zone.ofChars front = .outside fresh := by
  induction text using List.reverseRecOn with
  | nil => cases hescaped
  | append_singleton front c =>
    have hstep : (Zone.ofChars front).step c = .escaped := by
      rw [← hescaped, Zone.ofChars, Zone.ofChars, List.foldl_append]
      rfl
    cases hfront : Zone.ofChars front with
    | outside fresh =>
      rw [hfront] at hstep
      dsimp only [Zone.step] at hstep
      split_ifs at hstep with _ _ hbackslash
      exact ⟨front, fresh, by rw [hbackslash], hfront⟩
    | comment | quoted =>
      rw [hfront] at hstep
      dsimp only [Zone.step] at hstep
      split_ifs at hstep
    | escaped | hidden =>
      rw [hfront] at hstep
      cases hstep

/-- Outside of quotes the scan stands in the indentation or at the end of a word. -/
theorem place_of_zone_outside
    {scan : Scan} {fresh : Bool} (houtside : scan.zone = .outside fresh) :
    (∃ width, scan.place = .indent width) ∨
      ∃ line word, scan.place = .within line ∧ line.cursor.openWord? = some word := by
  unfold zone at houtside
  cases hplace : scan.place with
  | indent width => exact Or.inl ⟨width, rfl⟩
  | comment => simp [hplace] at houtside
  | within line =>
    right
    refine ⟨line, ?_⟩
    rw [hplace] at houtside
    cases hcursor : line.cursor with
    | gap => exact ⟨none, rfl, rfl⟩
    | bare word => exact ⟨some word, rfl, rfl⟩
    | name word letters => exact ⟨some (endName word letters), rfl, rfl⟩
    | remark | escape | single | singleEscape | double | doubleEscape | doubleName =>
      simp [hcursor, Cursor.zone] at houtside

end Scan

/-- A line that ends behind a backslash says, once it has a line end, what it says up to
the backslash, unless no word stands there. -/
theorem lines_of_openContinuation
    {text : List Char} (htext : '\n' ∉ text) (hopen : lines text = .error .openContinuation) :
    ∃ indent words, lines (text ++ ['\n']) = .ok [.code 1 indent words] ∧
      (words ≠ [] → lines (text.dropLast ++ ['\n']) = .ok [.code 1 indent words]) := by
  have hzone : Zone.ofChars text = .escaped := by
    rw [← Scan.zone_ofChars]
    exact (Scan.finish_eq_openContinuation_iff _).mp hopen
  obtain ⟨front, fresh, rfl, hfront⟩ := Scan.exists_of_zone_escaped hzone
  have hfirst : (Scan.ofChars front).OnFirstLine :=
    Scan.onFirstLine_ofChars fun hmem => htext (List.mem_append_left _ hmem)
  rw [List.dropLast_concat, List.append_assoc]
  unfold lines
  rw [Scan.ofChars_append, Scan.ofChars_append]
  rw [← Scan.zone_ofChars] at hfront
  obtain ⟨hlines, hnumber, hbegun⟩ := hfirst
  generalize Scan.ofChars front = scan at hfront hlines hnumber hbegun
  obtain ⟨found, number, place⟩ := scan
  obtain rfl : found = [] := hlines
  obtain rfl : number = 1 := hnumber
  rcases Scan.place_of_zone_outside hfront with ⟨width, rfl⟩ | ⟨line, word, rfl, hword⟩
  -- Behind blanks alone the backslash begins a line that has no words, and without it the
  -- line would be no logical line.
  · exact ⟨width, [], rfl, fun hne => absurd rfl hne⟩
  · have hbegins : line.number = 1 := hbegun line rfl
    have hspace : Scan.readLine line ' ' = .inl (line.endWord word) :=
      Scan.readLine_of_openWord? hword (by decide)
    have hend : Scan.readLine line '\n' = .inr (line.close word) :=
      Scan.readLine_of_openWord? hword (by decide)
    -- The backslash with the line end is read as a space, which ends the word that is open,
    -- as the line end by itself does.
    have hread : Scan.readOn line ['\\', '\n'] = some (line.endWord word) := by
      rw [Scan.readOn_continuation hword, Scan.readOn_cons, hspace]
      rfl
    refine ⟨line.indent, (line.endWord word).words.reverse, ?_, fun _ => ?_⟩
    · rw [List.singleton_append, Scan.foldl_step_within hread, ← hbegins]
      rfl
    · simp [Scan.step, Scan.read, Scan.advance, hend, Scan.finish, OpenLine.close, hbegins]

theorem Blocks.step_initial (number indent : Nat) (words : List Word) :
    Blocks.initial.step (.code number indent words) =
      match Clause.ofWords words with
      | .ok clause => .ok (Blocks.initial.add number indent clause)
      | .error fault => .error (.malformed fault number (indent + 1)) :=
  rfl

/-- What one line of words is for the parser of typed input. -/
theorem ofLines_single_line (number indent : Nat) (words : List Word) :
    Blocks.ofLines .single [.code number indent words] =
      match Clause.ofWords words with
      | .ok (.whole stmt) => .ok [stmt]
      | .ok (.head _) => .error (.unfinished .openBlock)
      | .error fault => .error (.malformed fault number (indent + 1)) := by
  unfold Blocks.ofLines
  rw [List.foldlM_cons, Blocks.step_initial]
  cases Clause.ofWords words with
  | error fault => rfl
  | ok clause => cases clause <;> rfl

end Language
end LineShell
