import LineShell.Proofs.Language.WellFormed

/-!
# Zones of a source

What the scan of a source remembers of quotes, comments and backslashes is a zone; its
words and lines do not matter for it.  A zone follows the scan one character at a time,
and a program fails to parse for an open quote exactly if its source ends in a quoted
zone.
-/

namespace LineShell
namespace Language

inductive Quote where
  | single
  | double
  deriving DecidableEq, Repr

def Quote.char : Quote → Char
  | single => '\''
  | double => '"'

@[simp] theorem Quote.char_single : Quote.single.char = '\'' := rfl

@[simp] theorem Quote.char_double : Quote.double.char = '"' := rfl

/-- Where a character stands: outside quotes, where a comment may begin or not, in a
comment, behind a backslash outside quotes, in a quoted text, or behind a backslash
there. -/
inductive Zone where
  | outside (fresh : Bool)
  | comment
  | escaped
  | quoted (quote : Quote)
  | hidden (quote : Quote)
  deriving DecidableEq, Repr

namespace Zone

def isOpen : Zone → Bool
  | quoted _ | hidden _ => true
  | outside _ | comment | escaped => false

/-- The zone after one more character. -/
def step : Zone → Char → Zone
  | outside fresh, c =>
    if c = '\n' ∨ c = ' ' ∨ c = '\t' then outside true
    else if c = '#' ∧ fresh then comment
    else if c = '\\' then escaped
    else if c = '\'' then quoted .single
    else if c = '"' then quoted .double
    else outside false
  | comment, c => if c = '\n' then outside true else comment
  | escaped, c => outside (c = '\n')
  | quoted quote, c =>
    if c = quote.char then outside false
    else if c = '\\' then hidden quote
    else quoted quote
  | hidden quote, _ => quoted quote

/-- The zone at the end of a text. -/
def ofChars (text : List Char) : Zone :=
  text.foldl step (outside true)

end Zone

def Cursor.zone : Cursor → Zone
  | .gap => .outside true
  | .remark => .comment
  | .bare _ | .name _ _ => .outside false
  | .escape _ => .escaped
  | .single _ => .quoted .single
  | .singleEscape _ => .hidden .single
  | .double _ | .doubleName _ _ => .quoted .double
  | .doubleEscape _ => .hidden .double

namespace Scan

def zone (scan : Scan) : Zone :=
  match scan.place with
  | .indent _ => .outside true
  | .comment => .comment
  | .within line => line.cursor.zone

/-! ## The zone follows the scan -/

/-- The zone in which a line goes on, and behind a line the one at the start of the
next. -/
def zoneAfter (line : Option OpenLine) : Zone :=
  (line.map fun line => line.cursor.zone).getD (.outside true)

theorem zone_readBare (line : OpenLine) (word : Option OpenWord) (c : Char) :
    zoneAfter (readBare line word c) = (Zone.outside word.isNone).step c := by
  unfold readBare Zone.step zoneAfter
  by_cases hnewline : c = '\n'
  · simp [hnewline]
  by_cases hblank : c = ' ' ∨ c = '\t'
  · simp [hnewline, hblank, OpenLine.endWord, Cursor.zone]
  by_cases hcomment : c = '#' ∧ word.isNone
  · simp [hcomment, OpenLine.goto, Cursor.zone]
  by_cases hescape : c = '\\'
  · simp [hescape, OpenLine.goto, Cursor.zone]
  by_cases hsingle : c = '\''
  · simp [hsingle, OpenLine.goto, Cursor.zone]
  by_cases hdouble : c = '"'
  · simp [hdouble, OpenLine.goto, Cursor.zone]
  · have hspace : ¬(c = '\n' ∨ c = ' ' ∨ c = '\t') := by tauto
    simp only [if_neg hnewline, if_neg hblank, if_neg hcomment, if_neg hescape,
      if_neg hsingle, if_neg hdouble, if_neg hspace]
    split <;> rfl

theorem zone_readSingle (word : OpenWord) (c : Char) :
    (readSingle word c).zone = (Zone.quoted .single).step c := by
  unfold readSingle Zone.step
  by_cases hquote : c = '\''
  · simp [hquote, Cursor.zone]
  · by_cases hescape : c = '\\' <;> simp [hquote, hescape, Cursor.zone]

theorem zone_readDouble (word : OpenWord) (c : Char) :
    (readDouble word c).zone = (Zone.quoted .double).step c := by
  unfold readDouble Zone.step
  by_cases hquote : c = '"'
  · simp [hquote, Cursor.zone]
  by_cases hescape : c = '\\'
  · simp [hescape, Cursor.zone]
  · by_cases hdollar : c = '$' <;> simp [hquote, hescape, hdollar, Cursor.zone]

/-- The characters of a name mean nothing to a zone. -/
theorem zone_step_of_extendsName
    {letters : List Char} {c : Char} (hname : extendsName letters c = true) :
    (Zone.outside false).step c = .outside false ∧
      (Zone.quoted .double).step c = .quoted .double := by
  have hnone : ∀ d ∈ ['\n', ' ', '\t', '#', '\\', '\'', '"'], isNameChar d = false := by
    simp [isNameChar]
  have hchar : isNameChar c = true := isNameChar_of_extendsName hname
  have hne : ∀ d ∈ ['\n', ' ', '\t', '#', '\\', '\'', '"'], c ≠ d := by
    rintro d hd rfl
    rw [hnone c hd] at hchar
    cases hchar
  simp only [List.mem_cons, List.not_mem_nil, or_false, forall_eq_or_imp, forall_eq] at hne
  simp [Zone.step, hne]

/-- The zone in which a character leaves a line, or the one at the start of the next. -/
def zoneOf : OpenLine ⊕ Line → Zone
  | .inl line => line.cursor.zone
  | .inr _ => .outside true

theorem zone_readOutside (line : OpenLine) (c : Char) (word : Option OpenWord) :
    zoneOf (match readBare line word c with
      | some line => .inl line
      | none => .inr (line.close word)) = (Zone.outside word.isNone).step c := by
  rw [← zone_readBare line word c]
  cases readBare line word c <;> rfl

theorem zone_readLine (line : OpenLine) (c : Char) :
    zoneOf (readLine line c) = line.cursor.zone.step c := by
  unfold readLine
  cases hcursor : line.cursor with
  | gap => exact zone_readOutside line c none
  | remark => by_cases hend : c = '\n' <;> simp [hend, hcursor, zoneOf, Cursor.zone, Zone.step]
  | bare word => exact zone_readOutside line c (some word)
  | escape word =>
    by_cases hend : c = '\n' <;>
      simp [hend, zoneOf, Cursor.zone, Zone.step, OpenLine.endWord, OpenLine.goto]
  | name word letters =>
    by_cases hname : extendsName letters c = true
    · simp only [if_pos hname]
      exact (zone_step_of_extendsName hname).1.symm
    · simp only [if_neg hname]
      exact zone_readOutside line c (some (endName word letters))
  | single word => exact zone_readSingle word c
  | singleEscape word =>
    by_cases hescaped : c = '\'' ∨ c = '\\'
    · simp only [if_pos hescaped]
      rfl
    · obtain ⟨hquote, hescape⟩ := not_or.mp hescaped
      simp [hquote, hescape, readSingle, zoneOf, OpenLine.goto, Cursor.zone, Zone.step]
  | double word => exact zone_readDouble word c
  | doubleEscape word => rfl
  | doubleName word letters =>
    by_cases hname : extendsName letters c = true
    · simp only [if_pos hname]
      exact (zone_step_of_extendsName hname).2.symm
    · simp only [if_neg hname]
      exact zone_readDouble (endName word letters) c

theorem zone_advance (scan : Scan) (line : OpenLine) (c : Char) :
    (advance scan line c).zone = line.cursor.zone.step c := by
  rw [← zone_readLine, advance]
  cases readLine line c <;> rfl

theorem zone_step (scan : Scan) (c : Char) : (step scan c).zone = scan.zone.step c := by
  have hread : (read scan c).zone = scan.zone.step c := by
    unfold read
    cases hplace : scan.place with
    | indent width =>
      have hzone : scan.zone = .outside true := by rw [zone, hplace]
      rw [hzone]
      by_cases hblank : c = ' ' ∨ c = '\t'
      · simp only [if_pos hblank]
        exact (if_pos (Or.inr hblank)).symm
      by_cases hend : c = '\n'
      · simp [hend, zone, Zone.step]
      by_cases hcomment : c = '#'
      · simp [hcomment, zone, Zone.step]
      · simp only [if_neg hblank, if_neg hend, if_neg hcomment]
        exact zone_advance scan _ c
    | comment =>
      have hzone : scan.zone = .comment := by rw [zone, hplace]
      rw [hzone]
      by_cases hend : c = '\n'
      · simp [hend, zone, Zone.step]
      · simp [hend, zone, hplace, Zone.step]
    | within line =>
      have hzone : scan.zone = line.cursor.zone := by rw [zone, hplace]
      rw [hzone]
      exact zone_advance scan line c
  exact hread

theorem zone_ofChars (text : List Char) : (ofChars text).zone = Zone.ofChars text := by
  have hrun : ∀ scan : Scan, (text.foldl step scan).zone = text.foldl Zone.step scan.zone := by
    induction text with
    | nil => exact fun _ => rfl
    | cons c rest ih =>
      intro scan
      rw [List.foldl_cons, List.foldl_cons, ih, zone_step]
  exact hrun initial

/-! ## Open quotes -/

theorem finish_eq_openQuote_iff (scan : Scan) :
    scan.finish = .error .openQuote ↔ scan.zone.isOpen = true := by
  unfold finish zone
  cases scan.place with
  | indent width => simp [Zone.isOpen]
  | comment => simp [Zone.isOpen]
  | within line => cases hcursor : line.cursor <;> simp [hcursor, Cursor.zone, Zone.isOpen]

end Scan

namespace Blocks

/-- Ending blocks finds no open quote, nor does a line. -/
theorem settle_ne_unfinished
    (keep : Head → Bool) (inner : Block) (outer : List (Head × Block)) (cause : Unfinished) :
    settle keep inner outer ≠ .error (.unfinished cause) := by
  intro hsettle
  obtain ⟨head, block, rest, -, -, -, hfault⟩ := exists_of_settle_eq_error hsettle
  cases hfault

theorem step_ne_unfinished (blocks : Blocks) (line : Line) (cause : Unfinished) :
    blocks.step line ≠ .error (.unfinished cause) := by
  cases line with
  | blank => exact settle_ne_unfinished _ _ _ cause
  | code number indent words =>
    intro hstep
    rcases bind_eq_error hstep with hsettle | ⟨settled, _, hadd⟩
    · exact settle_ne_unfinished _ _ _ cause hsettle
    · split at hadd
      · cases hadd
      · split at hadd <;> cases hadd

theorem foldlM_step_ne_unfinished (blocks : Blocks) (lines : List Line) (cause : Unfinished) :
    lines.foldlM step blocks ≠ .error (.unfinished cause) := by
  induction lines generalizing blocks with
  | nil => exact fun hfold => by cases hfold
  | cons line rest ih =>
    intro hfold
    rcases bind_eq_error hfold with hstep | ⟨next, _, hrest⟩
    · exact step_ne_unfinished blocks line cause hstep
    · exact ih next hrest

theorem ofLines_ne_openQuote (mode : Mode) (lines : List Line) :
    ofLines mode lines ≠ .error (.unfinished .openQuote) := by
  intro hlines
  rcases bind_eq_error hlines with hfold | ⟨blocks, _, hfinish⟩
  · exact foldlM_step_ne_unfinished initial lines .openQuote hfold
  · cases mode with
    | single =>
      unfold finish at hfinish
      split_ifs at hfinish
      cases hfinish
    | exec =>
      rcases bind_eq_error hfinish with hsettle | ⟨settled, _, hdone⟩
      · exact settle_ne_unfinished _ _ _ .openQuote hsettle
      · cases hdone

end Blocks

/-- A source fails to parse for an open quote exactly if it ends in a quoted zone. -/
theorem parse_eq_openQuote_iff (mode : Mode) (source : String) :
    parse mode source = .error (.unfinished .openQuote) ↔
      (Zone.ofChars source.toList).isOpen = true := by
  rw [← Scan.zone_ofChars, ← Scan.finish_eq_openQuote_iff]
  unfold parse lines
  cases hlines : (Scan.ofChars source.toList).finish with
  | error cause => simp
  | ok lines => simpa using Blocks.ofLines_ne_openQuote mode lines

end Language
end LineShell
