import LineShell.Proofs.Language.LineEnds

/-!
# Layout does not change what a source says

A line of blanks or a comment leaves no trace but in the numbers of the lines behind it,
and a backslash before a line end separates words as a space does.  Numbers of lines are
only carried along: they are in the faults that parsing tells of, and nothing depends on
them.  So both kinds of layout can be put in and taken out, and a program stays what it is.
-/

namespace LineShell
namespace Language

/-! ## Outcomes that agree -/

/-- Two outcomes that agree but for the lines of faults, where two results agree if they are
the `same`. -/
inductive Agree {α : Type} (same : α → α → Prop) :
    Except ParseError α → Except ParseError α → Prop where
  | ok {a b : α} : same a b → Agree same (.ok a) (.ok b)
  | unfinished (cause : Unfinished) :
      Agree same (.error (.unfinished cause)) (.error (.unfinished cause))
  | malformed (cause : Malformed) (line other column : Nat) :
      Agree same (.error (.malformed cause line column)) (.error (.malformed cause other column))

theorem Agree.bind
    {α β : Type} {same : α → α → Prop} {like : β → β → Prop} {first second : Except ParseError α}
    (hagree : Agree same first second) {next : α → Except ParseError β}
    {other : α → Except ParseError β}
    (hnext : ∀ a b, same a b → Agree like (next a) (other b)) :
    Agree like (first >>= next) (second >>= other) := by
  cases hagree with
  | ok hsame => exact hnext _ _ hsame
  | unfinished cause => exact .unfinished cause
  | malformed cause line other column => exact .malformed cause line other column

/-! ## The scan without numbers -/

def Line.unnumbered : Line → Line
  | .blank => .blank
  | .code _ indent words => .code 0 indent words

def OpenLine.unnumbered (line : OpenLine) : OpenLine :=
  { line with number := 0 }

def Place.unnumbered : Place → Place
  | .within line => .within line.unnumbered
  | place => place

namespace Scan

def unnumbered (scan : Scan) : Scan :=
  ⟨scan.lines.map Line.unnumbered, 0, scan.place.unnumbered⟩

@[simp] theorem unnumbered_place (scan : Scan) :
    scan.unnumbered.place = scan.place.unnumbered := rfl

@[simp] theorem unnumbered_lines (scan : Scan) :
    scan.unnumbered.lines = scan.lines.map Line.unnumbered := rfl

theorem readBare_unnumbered (line : OpenLine) (word : Option OpenWord) (c : Char) :
    readBare line.unnumbered word c = (readBare line word c).map OpenLine.unnumbered := by
  unfold readBare
  dsimp only
  split_ifs <;> rfl

theorem readOutside_unnumbered (line : OpenLine) (c : Char) (word : Option OpenWord) :
    (match readBare line.unnumbered word c with
      | some next => .inl next
      | none => .inr (line.unnumbered.close word) : OpenLine ⊕ Line) =
      (match readBare line word c with
        | some next => .inl next
        | none => .inr (line.close word) : OpenLine ⊕ Line).map
          OpenLine.unnumbered Line.unnumbered := by
  rw [readBare_unnumbered]
  cases readBare line word c <;> rfl

theorem readLine_unnumbered (line : OpenLine) (c : Char) :
    readLine line.unnumbered c =
      (readLine line c).map OpenLine.unnumbered Line.unnumbered := by
  have hcursor : line.unnumbered.cursor = line.cursor := rfl
  unfold readLine
  rw [hcursor]
  cases line.cursor with
  | gap => exact readOutside_unnumbered line c none
  | bare word => exact readOutside_unnumbered line c (some word)
  | name word letters =>
    dsimp only
    split_ifs
    · rfl
    · exact readOutside_unnumbered line c (some (endName word letters))
  | remark | escape | singleEscape | doubleName =>
    dsimp only
    split_ifs <;> rfl
  | single | double | doubleEscape => rfl

theorem advance_unnumbered (scan : Scan) (line : OpenLine) (c : Char) :
    (advance scan line c).unnumbered = advance scan.unnumbered line.unnumbered c := by
  unfold advance
  rw [readLine_unnumbered]
  cases readLine line c <;> rfl

theorem unnumbered_step (scan : Scan) (c : Char) :
    (step scan c).unnumbered = read scan.unnumbered c := by
  have hread : (read scan c).unnumbered = read scan.unnumbered c := by
    unfold read
    rw [unnumbered_place]
    cases scan.place with
    | indent width =>
      dsimp only [Place.unnumbered]
      split_ifs
      · rfl
      · rfl
      · rfl
      · rfl
      · exact advance_unnumbered scan _ c
    | comment =>
      dsimp only [Place.unnumbered]
      split_ifs <;> rfl
    | within line => exact advance_unnumbered scan line c
  exact hread

theorem unnumbered_foldl_step (scan : Scan) (text : List Char) :
    (text.foldl step scan).unnumbered = text.foldl read scan.unnumbered := by
  induction text generalizing scan with
  | nil => rfl
  | cons c rest ih => rw [List.foldl_cons, List.foldl_cons, ih, unnumbered_step]

theorem finish_unnumbered (scan : Scan) :
    scan.unnumbered.finish = scan.finish.map (List.map Line.unnumbered) := by
  unfold finish
  rw [unnumbered_place, unnumbered_lines]
  cases scan.place with
  | indent | comment => simp [Place.unnumbered, Except.map]
  | within line =>
    have hcursor : line.unnumbered.cursor = line.cursor := rfl
    dsimp only [Place.unnumbered]
    rw [hcursor]
    cases line.cursor <;>
      simp [Except.map, OpenLine.close, OpenLine.endWord, OpenLine.unnumbered, Line.unnumbered]

end Scan

theorem lines_unnumbered
    {first second : List Char}
    (hscan : (Scan.ofChars first).unnumbered = (Scan.ofChars second).unnumbered) :
    (lines first).map (List.map Line.unnumbered) =
      (lines second).map (List.map Line.unnumbered) := by
  rw [lines, lines, ← Scan.finish_unnumbered, ← Scan.finish_unnumbered, hscan]

/-! ## Blocks without numbers -/

def Head.unnumbered (head : Head) : Head :=
  { head with number := 0 }

namespace Blocks

def unnumberedHeads (outer : List (Head × Block)) : List (Head × Block) :=
  outer.map fun entry => (entry.1.unnumbered, entry.2)

/-- Blocks that are the same but for the numbers of the lines of their heads. -/
structure Alike (first second : Blocks) : Prop where
  inner : first.inner = second.inner
  outer : unnumberedHeads first.outer = unnumberedHeads second.outer

theorem Alike.isEmpty_eq {first second : Blocks} (halike : first.Alike second) :
    first.outer.isEmpty = second.outer.isEmpty := by
  have hmap : ∀ outer, (unnumberedHeads outer).isEmpty = outer.isEmpty :=
    fun _ => List.isEmpty_map
  rw [← hmap, halike.outer, hmap]

theorem settle_agree
    {keep : Head → Bool} (hkeep : ∀ head, keep head.unnumbered = keep head)
    {first second : Blocks} (halike : first.Alike second) :
    Agree Alike (settle keep first.inner first.outer)
      (settle keep second.inner second.outer) := by
  obtain ⟨inner, outer⟩ := first
  obtain ⟨otherInner, others⟩ := second
  obtain ⟨rfl, houter⟩ : inner = otherInner ∧ unnumberedHeads outer = unnumberedHeads others :=
    ⟨halike.inner, halike.outer⟩
  clear halike
  induction outer generalizing inner others with
  | nil =>
    obtain rfl : others = [] := by simpa [unnumberedHeads] using houter
    exact .ok ⟨rfl, rfl⟩
  | cons entry rest ih =>
    obtain ⟨head, block⟩ := entry
    cases others with
    | nil => cases houter
    | cons other more =>
      obtain ⟨otherHead, otherBlock⟩ := other
      obtain ⟨hentry, hrest⟩ := List.cons.inj houter
      obtain ⟨hhead, rfl⟩ := Prod.mk.inj hentry
      have hcount : head.count = otherHead.count := congrArg (fun head => head.count) hhead
      have hsame : keep head = keep otherHead := by rw [← hkeep, hhead, hkeep]
      dsimp only
      rw [settle, settle, hsame, hcount]
      split_ifs
      · exact .ok ⟨rfl, houter⟩
      · exact .malformed .missingBlock _ _ 1
      · exact ih _ _ hrest

theorem indentFault?_alike {first second : Blocks} (halike : first.Alike second)
    (indent : Nat) : first.indentFault? indent = second.indentFault? indent := by
  rw [indentFault?, indentFault?, halike.inner, halike.isEmpty_eq]

theorem add_alike {first second : Blocks} (halike : first.Alike second)
    (number other indent : Nat) (clause : Clause) :
    (first.add number indent clause).Alike (second.add other indent clause) := by
  cases clause with
  | whole stmt => exact ⟨by simp only [add, halike.inner], halike.outer⟩
  | head count =>
    refine ⟨rfl, ?_⟩
    have hrest := halike.outer
    unfold unnumberedHeads at hrest ⊢
    simp only [add, halike.inner, List.map_cons, hrest]
    rfl

theorem step_agree {first second : Blocks} (halike : first.Alike second)
    {line other : Line} (hline : line.unnumbered = other.unnumbered) :
    Agree Alike (first.step line) (second.step other) := by
  cases line with
  | blank =>
    cases other with
    | blank => exact settle_agree (fun _ => rfl) halike
    | code => cases hline
  | code number indent words =>
    cases other with
    | blank => cases hline
    | code otherNumber otherIndent otherWords =>
      obtain ⟨rfl, rfl⟩ : indent = otherIndent ∧ words = otherWords := by
        simpa [Line.unnumbered] using hline
      unfold step
      refine (settle_agree (fun _ => rfl) halike).bind ?_
      intro settled otherSettled hsettled
      rw [indentFault?_alike hsettled]
      cases otherSettled.indentFault? indent with
      | some fault => exact .malformed fault _ _ _
      | none =>
        cases Clause.ofWords words with
        | ok clause => exact .ok (add_alike hsettled _ _ _ _)
        | error fault => exact .malformed fault _ _ _

theorem foldlM_step_agree {first second : Blocks} (halike : first.Alike second)
    {lines others : List Line}
    (hlines : lines.map Line.unnumbered = others.map Line.unnumbered) :
    Agree Alike (lines.foldlM step first) (others.foldlM step second) := by
  induction lines generalizing first second others with
  | nil =>
    obtain rfl : others = [] := by simpa using hlines
    exact .ok halike
  | cons line rest ih =>
    cases others with
    | nil => cases hlines
    | cons other more =>
      obtain ⟨hline, hrest⟩ := List.cons.inj hlines
      exact (step_agree halike hline).bind fun _ _ hnext => ih hnext hrest

theorem finish_agree (mode : Mode) {first second : Blocks} (halike : first.Alike second) :
    Agree Eq (finish mode first) (finish mode second) := by
  cases mode with
  | single =>
    rw [finish, finish, halike.inner, halike.isEmpty_eq]
    split_ifs
    · exact .ok rfl
    · exact .unfinished .openBlock
  | exec =>
    unfold finish
    refine (settle_agree (fun _ => rfl) halike).bind ?_
    intro settled other hsettled
    rw [hsettled.inner]
    exact .ok rfl

end Blocks

/-- Sources that are scanned alike but for numbers are parsed alike but for the lines of
faults. -/
theorem parse_agree
    {first second : String}
    (hscan : (Scan.ofChars first.toList).unnumbered = (Scan.ofChars second.toList).unnumbered)
    (mode : Mode) : Agree Eq (parse mode first) (parse mode second) := by
  have hlines := lines_unnumbered hscan
  unfold parse
  cases hfirst : lines first.toList with
  | error cause =>
    cases hsecond : lines second.toList with
    | error other =>
      obtain rfl : cause = other := by simpa [hfirst, hsecond, Except.map] using hlines
      exact .unfinished cause
    | ok found => simp [hfirst, hsecond, Except.map] at hlines
  | ok found =>
    cases hsecond : lines second.toList with
    | error other => simp [hfirst, hsecond, Except.map] at hlines
    | ok others =>
      have hfound : found.map Line.unnumbered = others.map Line.unnumbered := by
        simpa [hfirst, hsecond, Except.map] using hlines
      exact (Blocks.foldlM_step_agree ⟨rfl, rfl⟩ hfound).bind fun _ _ halike =>
        Blocks.finish_agree mode halike

/-! ## Layout that says nothing -/

/-- A line, without its end, of blanks alone, but not empty, or of a comment behind any
indentation. -/
inductive Filler : List Char → Prop where
  | blanks {text : List Char} :
      text ≠ [] → (∀ c ∈ text, c = ' ' ∨ c = '\t') → Filler text
  | remark {indent text : List Char} :
      (∀ c ∈ indent, c = ' ' ∨ c = '\t') → '\n' ∉ text → Filler (indent ++ '#' :: text)

/-- The text ends within a logical line, outside quotes and comments and not behind a
backslash. -/
def WithinLine (text : List Char) : Prop :=
  ∃ line word, (Scan.ofChars text).place = .within line ∧ line.cursor.openWord? = some word

namespace Scan

theorem foldl_step_blanks
    {text : List Char} (htext : ∀ c ∈ text, c = ' ' ∨ c = '\t') (lines : List Line)
    (number width : Nat) :
    text.foldl step ⟨lines, number, .indent width⟩ =
      ⟨lines, number, .indent (width + text.length)⟩ := by
  induction text generalizing width with
  | nil => rfl
  | cons c rest ih =>
    obtain ⟨hc, hrest⟩ := List.forall_mem_cons.mp htext
    have hstep : step ⟨lines, number, .indent width⟩ c =
        ⟨lines, number, .indent (width + 1)⟩ := by
      rcases hc with rfl | rfl <;> rfl
    rw [List.foldl_cons, hstep, ih hrest, List.length_cons, Nat.add_assoc, Nat.add_comm 1]

theorem foldl_step_remark
    {text : List Char} (htext : '\n' ∉ text) (lines : List Line) (number : Nat) :
    text.foldl step ⟨lines, number, .comment⟩ = ⟨lines, number, .comment⟩ := by
  induction text with
  | nil => rfl
  | cons c rest ih =>
    rw [List.mem_cons, not_or] at htext
    have hstep : step ⟨lines, number, .comment⟩ c = ⟨lines, number, .comment⟩ := by
      simp [step, read, Ne.symm htext.1]
    rw [List.foldl_cons, hstep, ih htext.2]

/-- A filler adds no logical line, whether the source goes on behind it or ends. -/
theorem foldl_step_filler
    {text : List Char} (hfiller : Filler text) (lines : List Line) (number : Nat) :
    ∃ place, text.foldl step ⟨lines, number, .indent 0⟩ = ⟨lines, number, place⟩ ∧
      step ⟨lines, number, place⟩ '\n' = ⟨lines, number + 1, .indent 0⟩ ∧
      finish ⟨lines, number, place⟩ = .ok lines.reverse := by
  cases hfiller with
  | blanks hne hblanks =>
    refine ⟨_, foldl_step_blanks hblanks lines number 0, ?_, rfl⟩
    have hwidth : 0 + text.length ≠ 0 := by simpa using hne
    simp only [step, read, if_neg hwidth]
    rfl
  | @remark indent comment hindent hcomment =>
    refine ⟨.comment, ?_, rfl, rfl⟩
    rw [List.foldl_append, foldl_step_blanks hindent, List.foldl_cons]
    exact foldl_step_remark hcomment lines number

theorem readOn_continuation
    {line : OpenLine} {word : Option OpenWord} (hword : line.cursor.openWord? = some word) :
    readOn line ['\\', '\n'] = readOn line [' '] := by
  have hspace : readLine line ' ' = .inl (line.endWord word) :=
    readLine_of_openWord? hword (by decide)
  have hescape : readLine line '\\' = .inl (line.goto (.escape word)) :=
    readLine_of_openWord? hword (by decide)
  rw [readOn_cons, readOn_cons, hspace, hescape]
  rfl

theorem unnumbered_continuation {text : List Char} (hwithin : WithinLine text) :
    (ofChars (text ++ ['\\', '\n'])).unnumbered = (ofChars (text ++ [' '])).unnumbered := by
  obtain ⟨line, word, hplace, hword⟩ := hwithin
  obtain ⟨next, hnext⟩ : ∃ next, readOn line [' '] = some next :=
    ⟨line.endWord word, by rw [readOn_cons, readLine_of_openWord? hword (by decide)]; rfl⟩
  have hscan : ofChars text = ⟨(ofChars text).lines, (ofChars text).number, .within line⟩ := by
    rw [← hplace]
  rw [ofChars_append, ofChars_append, hscan, foldl_step_within hnext,
    foldl_step_within ((readOn_continuation hword).trans hnext)]
  rfl

theorem unnumbered_filler
    {text filler : List Char} (hend : EndsLine text) (hfiller : Filler filler) :
    (ofChars (text ++ filler ++ ['\n'])).unnumbered = (ofChars text).unnumbered := by
  obtain ⟨found, number, hscan⟩ := exists_of_endsLine hend
  obtain ⟨place, hfilled, hnext, -⟩ := foldl_step_filler hfiller found number
  rw [ofChars_append, ofChars_append, hscan, hfilled, List.foldl_cons, hnext]
  rfl

/-- What follows two texts does not tell them apart if nothing but numbers does. -/
theorem unnumbered_ofChars_append
    {first second : List Char} (hsame : (ofChars first).unnumbered = (ofChars second).unnumbered)
    (back : List Char) :
    (ofChars (first ++ back)).unnumbered = (ofChars (second ++ back)).unnumbered := by
  rw [ofChars_append, ofChars_append, unnumbered_foldl_step, unnumbered_foldl_step, hsame]

end Scan

/-- A filler may also be the last line of a source, without a line end. -/
theorem lines_filler
    {text filler : List Char} (hend : EndsLine text) (hfiller : Filler filler) :
    lines (text ++ filler) = lines text := by
  obtain ⟨found, number, hscan⟩ := Scan.exists_of_endsLine hend
  obtain ⟨place, hfilled, -, hfinish⟩ := Scan.foldl_step_filler hfiller found number
  rw [lines, lines, Scan.ofChars_append, hscan, hfilled, hfinish]
  rfl

/-- In either mode, behind a whole line a line of blanks or a comment can be put in, and it
changes nothing but the lines that faults are told of; and within a line, outside quotes
and comments, a backslash before a line end is as good as a space. -/
theorem layout_keeps_meaning (mode : Mode) (front back : String) :
    (EndsLine front.toList → ∀ filler : String, Filler filler.toList →
      Agree Eq (parse mode (front ++ filler ++ "\n" ++ back)) (parse mode (front ++ back)) ∧
        parse mode (front ++ filler) = parse mode front) ∧
      (WithinLine front.toList →
        Agree Eq (parse mode (front ++ "\\\n" ++ back))
          (parse mode (front ++ " " ++ back))) := by
  constructor
  · intro hend filler hfiller
    constructor
    · apply parse_agree
      simpa using Scan.unnumbered_ofChars_append (Scan.unnumbered_filler hend hfiller)
        back.toList
    · rw [parse, parse, String.toList_append, lines_filler hend hfiller]
  · intro hwithin
    apply parse_agree
    simpa using Scan.unnumbered_ofChars_append (Scan.unnumbered_continuation hwithin)
      back.toList

/-- A comment between the head of a repetition and its body leaves no trace, nor does a
continued head. -/
theorem commented_repetition_unchanged :
    let head := "repeat 2:\n"
    let body := "  echo 'a\nb' c\n\n"
    Agree Eq (parse .single (head ++ "# don't\\" ++ "\n" ++ body)) (parse .single (head ++ body)) ∧
      Agree Eq (parse .single ("repeat" ++ "\\\n" ++ " 2:\n  cd a b"))
        (parse .single ("repeat" ++ " " ++ " 2:\n  cd a b")) ∧
      parse .single ("repeat" ++ "\\\n" ++ " 2:\n  cd a b") =
        .error (.malformed .cdArguments 3 3) := by
  intro head body
  have hend : EndsLine head.toList :=
    Or.inr ⟨"repeat 2:".toList, by decide +kernel, by decide +kernel, by decide +kernel⟩
  have hfiller : Filler "# don't\\".toList :=
    @Filler.remark [] " don't\\".toList (by simp) (by decide)
  have hwithin : WithinLine "repeat".toList :=
    ⟨⟨1, 0, [], .bare [.lit "repeat"]⟩, some [.lit "repeat"], by decide +kernel, rfl⟩
  exact ⟨((layout_keeps_meaning .single head body).1 hend "# don't\\" hfiller).1,
    (layout_keeps_meaning .single "repeat" " 2:\n  cd a b").2 hwithin, by rfl⟩

end Language
end LineShell
