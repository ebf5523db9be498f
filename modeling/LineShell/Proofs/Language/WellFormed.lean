import LineShell.Language.Parse
import LineShell.Proofs.Faults
import Mathlib.Tactic

/-!
# Well-formed programs

A program is well formed if its names are names, no repetition is without a body, and
every word has parts of which no two literal ones stand side by side.  The scan keeps
this of the words that it has read and of the one that is open, and the blocks keep it
of the statements.  So only well-formed programs are ever parsed.
-/

namespace LineShell
namespace Language

/-! ## Well-formed words and statements -/

theorem isNameChar_of_isNameStart {c : Char} (hc : isNameStart c = true) :
    isNameChar c = true := by
  simp only [isNameStart, isNameChar, Char.isAlphanum, Bool.or_eq_true] at hc ⊢
  tauto

theorem isName_iff {text : String} :
    isName text ↔ ∃ c rest, text.toList = c :: rest ∧ isNameStart c ∧ ∀ d ∈ rest, isNameChar d := by
  unfold isName
  cases text.toList with
  | nil => simp
  | cons c rest => simp

def Part.isLiteral : Part → Bool
  | .lit _ => true
  | .var _ => false

/-- Parts of which not both are literal. -/
def Part.Apart (first second : Part) : Prop :=
  ¬ (first.isLiteral ∧ second.isLiteral)

structure Word.WellFormed (word : Word) : Prop where
  ne_nil : word ≠ []
  isName_of_var : ∀ name, Part.var name ∈ word → isName name
  apart : word.IsChain Part.Apart

mutual

def Stmt.WellFormed : Stmt → Prop
  | .echo _ words => ∀ word ∈ words, Word.WellFormed word
  | .set name words => isName name ∧ ∀ word ∈ words, Word.WellFormed word
  | .unset name => isName name
  | .cd dir => ∀ word ∈ dir, Word.WellFormed word
  | .succeed | .markFailed | .exit _ => True
  | .fail words | .abort words => ∀ word ∈ words, Word.WellFormed word
  | .loop _ body => body ≠ [] ∧ Stmt.AllWellFormed body

def Stmt.AllWellFormed : List Stmt → Prop
  | [] => True
  | stmt :: rest => stmt.WellFormed ∧ Stmt.AllWellFormed rest

end

def Program.WellFormed (program : Program) : Prop :=
  Stmt.AllWellFormed program

theorem Stmt.allWellFormed_iff {stmts : List Stmt} :
    Stmt.AllWellFormed stmts ↔ ∀ stmt ∈ stmts, stmt.WellFormed := by
  induction stmts with
  | nil => simp [Stmt.AllWellFormed]
  | cons stmt rest ih => simp [Stmt.AllWellFormed, ih]

theorem Part.Apart.symm {first second : Part} (hapart : first.Apart second) :
    second.Apart first :=
  fun hboth => hapart hboth.symm

theorem Part.apart_of_var (part : Part) (name : String) : (Part.var name).Apart part :=
  fun hboth => Bool.false_ne_true hboth.1

/-! ## Well-formedness is computed -/

instance : DecidableRel Part.Apart :=
  fun first second => inferInstanceAs (Decidable (¬ (first.isLiteral ∧ second.isLiteral)))

def Part.isNamed : Part → Bool
  | .lit _ => true
  | .var name => isName name

theorem Word.wellFormed_iff {word : Word} :
    word.WellFormed ↔ word ≠ [] ∧ word.all Part.isNamed ∧ word.IsChain Part.Apart := by
  have hnames : word.all Part.isNamed ↔ ∀ name, Part.var name ∈ word → isName name := by
    rw [List.all_eq_true]
    constructor
    · exact fun hall name hname => hall (.var name) hname
    · intro hall part hpart
      cases part with
      | lit text => rfl
      | var name => exact hall name hpart
  rw [hnames]
  exact ⟨fun h => ⟨h.1, h.2, h.3⟩, fun h => ⟨h.1, h.2.1, h.2.2⟩⟩

instance : DecidablePred Word.WellFormed :=
  fun _ => decidable_of_iff' _ Word.wellFormed_iff

mutual

def Stmt.decidableWellFormed : (stmt : Stmt) → Decidable stmt.WellFormed
  | .echo _ words | .fail words | .abort words =>
    inferInstanceAs (Decidable (∀ word ∈ words, Word.WellFormed word))
  | .set name words =>
    inferInstanceAs (Decidable (isName name ∧ ∀ word ∈ words, Word.WellFormed word))
  | .unset name => inferInstanceAs (Decidable (isName name))
  | .cd dir => inferInstanceAs (Decidable (∀ word ∈ dir, Word.WellFormed word))
  | .succeed | .markFailed | .exit _ => inferInstanceAs (Decidable True)
  | .loop _ body =>
    have := Stmt.decidableAllWellFormed body
    inferInstanceAs (Decidable (body ≠ [] ∧ Stmt.AllWellFormed body))

def Stmt.decidableAllWellFormed : (stmts : List Stmt) → Decidable (Stmt.AllWellFormed stmts)
  | [] => inferInstanceAs (Decidable True)
  | stmt :: rest =>
    have := stmt.decidableWellFormed
    have := Stmt.decidableAllWellFormed rest
    inferInstanceAs (Decidable (stmt.WellFormed ∧ Stmt.AllWellFormed rest))

end

instance : DecidablePred Program.WellFormed :=
  Stmt.decidableAllWellFormed

example : ¬ Word.WellFormed [.lit "a", .lit "b"] := by
  decide

/-! ## Open words -/

namespace OpenWord

theorem addChar_eq_addText (word : OpenWord) (c : Char) :
    word.addChar c = word.addText (String.singleton c) := by
  have hpush : ∀ last : String, last.push c = last ++ String.singleton c := by
    intro last
    simp
  unfold addChar addText
  split
  · rw [hpush]
  · rfl

/-- The parts of an open word, the last one first, may stand in a word. -/
structure Sound (word : OpenWord) : Prop where
  isName_of_var : ∀ name, Part.var name ∈ word → isName name
  apart : word.IsChain Part.Apart

theorem sound_nil : Sound [] :=
  ⟨by simp, List.IsChain.nil⟩

/-- Text ends up in one literal part, behind a variable or behind none. -/
theorem Sound.addText {word : OpenWord} (hword : word.Sound) (text : String) :
    (word.addText text).Sound ∧ word.addText text ≠ [] := by
  cases word with
  | nil =>
    exact ⟨⟨by simp [OpenWord.addText], List.IsChain.singleton _⟩, by simp [OpenWord.addText]⟩
  | cons part rest =>
    cases part with
    | lit last =>
      refine ⟨⟨?_, ?_⟩, by simp [OpenWord.addText]⟩
      · intro name hname
        exact hword.isName_of_var name (by simpa [OpenWord.addText] using hname)
      · have hchain := hword.apart
        rw [List.isChain_cons] at hchain
        exact List.isChain_cons.mpr hchain
    | var name =>
      refine ⟨⟨?_, ?_⟩, by simp [OpenWord.addText]⟩
      · intro other hother
        exact hword.isName_of_var other (by simpa [OpenWord.addText] using hother)
      · exact List.isChain_cons_cons.mpr ⟨(Part.apart_of_var (.lit text) name).symm, hword.apart⟩

theorem Sound.addChar {word : OpenWord} (hword : word.Sound) (c : Char) :
    (word.addChar c).Sound ∧ word.addChar c ≠ [] := by
  rw [addChar_eq_addText]
  exact hword.addText (String.singleton c)

theorem Sound.addVar
    {word : OpenWord} (hword : word.Sound) {letters : List Char}
    (hname : isName (String.ofList letters.reverse)) :
    (word.addVar letters).Sound ∧ word.addVar letters ≠ [] := by
  refine ⟨⟨?_, ?_⟩, by simp [OpenWord.addVar]⟩
  · intro name hmem
    rcases List.mem_cons.mp hmem with hnew | hold
    · rwa [Part.var.inj hnew]
    · exact hword.isName_of_var name hold
  · rw [OpenWord.addVar, List.isChain_cons]
    exact ⟨fun part _ => Part.apart_of_var part _, hword.apart⟩

theorem Sound.close
    {word : OpenWord} (hword : word.Sound) (hne : word ≠ []) :
    Word.WellFormed word.close := by
  refine ⟨by simpa [OpenWord.close] using hne, ?_, ?_⟩
  · intro name hname
    exact hword.isName_of_var name (List.mem_reverse.mp hname)
  · exact List.isChain_reverse.mpr (hword.apart.imp fun _ _ hapart => hapart.symm)

end OpenWord

/-! ## The scan -/

namespace Scan

theorem isNameChar_of_extendsName
    {letters : List Char} {c : Char} (hc : extendsName letters c = true) :
    isNameChar c = true := by
  unfold extendsName at hc
  split_ifs at hc
  · exact isNameChar_of_isNameStart hc
  · exact hc

/-- The letters behind a dollar sign, the last one first, are none or a name. -/
def Letters (letters : List Char) : Prop :=
  letters = [] ∨ isName (String.ofList letters.reverse)

theorem Letters.cons
    {letters : List Char} (hletters : Letters letters) {c : Char}
    (hc : extendsName letters c) : Letters (c :: letters) := by
  right
  rcases hletters with rfl | hname
  · simpa [isName, extendsName] using hc
  · obtain ⟨first, rest, hletters, hfirst, hrest⟩ := isName_iff.mp hname
    rw [String.toList_ofList] at hletters
    have hne : letters.isEmpty = false := by
      cases letters
      · cases hletters
      · rfl
    simp only [extendsName, hne] at hc
    refine isName_iff.mpr ⟨first, rest ++ [c], ?_, hfirst, ?_⟩
    · rw [String.toList_ofList, List.reverse_cons, hletters, List.cons_append]
    · exact List.forall_mem_append.mpr ⟨hrest, by simpa using hc⟩

theorem sound_endName
    {word : OpenWord} (hword : word.Sound) {letters : List Char} (hletters : Letters letters) :
    (endName word letters).Sound ∧ endName word letters ≠ [] := by
  unfold endName
  cases letters with
  | nil => exact hword.addChar '$'
  | cons c rest =>
    rcases hletters with hnil | hname
    · cases hnil
    · exact hword.addVar hname

end Scan

open Scan

/-- What a place in a logical line holds of a word is sound. -/
def Cursor.Sound : Cursor → Prop
  | .gap | .remark | .escape none => True
  | .bare word | .escape (some word) | .single word | .singleEscape word | .double word
  | .doubleEscape word => word.Sound ∧ word ≠ []
  | .name word letters => word.Sound ∧ Letters letters
  | .doubleName word letters => (word.Sound ∧ word ≠ []) ∧ Letters letters

structure OpenLine.Sound (line : OpenLine) : Prop where
  words : ∀ word ∈ line.words, Word.WellFormed word
  cursor : line.cursor.Sound

def Line.Sound : Line → Prop
  | .blank => True
  | .code _ _ words => ∀ word ∈ words, Word.WellFormed word

theorem OpenLine.sound_endWord
    {line : OpenLine} (hline : line.Sound) {word : Option OpenWord}
    (hword : ∀ w ∈ word, w.Sound ∧ w ≠ []) : (line.endWord word).Sound := by
  refine ⟨?_, trivial⟩
  intro other hother
  cases word with
  | none => exact hline.words other hother
  | some w =>
    rcases List.mem_cons.mp hother with rfl | hold
    · exact (hword w rfl).1.close (hword w rfl).2
    · exact hline.words other hold

theorem OpenLine.sound_close
    {line : OpenLine} (hline : line.Sound) {word : Option OpenWord}
    (hword : ∀ w ∈ word, w.Sound ∧ w ≠ []) : (line.close word).Sound := by
  intro other hother
  exact (OpenLine.sound_endWord hline hword).words other (List.mem_reverse.mp hother)

namespace Scan

theorem sound_readBare
    {line next : OpenLine} (hline : line.Sound) {word : Option OpenWord}
    (hword : ∀ w ∈ word, w.Sound ∧ w ≠ []) {c : Char}
    (hread : readBare line word c = some next) : next.Sound := by
  have hopen : (word.getD []).Sound := by
    cases word with
    | none => exact OpenWord.sound_nil
    | some w => exact (hword w rfl).1
  have hgoto : ∀ cursor : Cursor, cursor.Sound → (line.goto cursor).Sound :=
    fun cursor hcursor => ⟨hline.words, hcursor⟩
  unfold readBare at hread
  dsimp only at hread
  split_ifs at hread <;> obtain rfl := Option.some.inj hread
  · exact OpenLine.sound_endWord hline hword
  · exact hgoto .remark trivial
  · cases word with
    | none => exact hgoto (.escape none) trivial
    | some w => exact hgoto (.escape (some w)) (hword w rfl)
  · exact hgoto (.single _) (hopen.addText "")
  · exact hgoto (.double _) (hopen.addText "")
  · exact hgoto (.name _ []) ⟨hopen, Or.inl rfl⟩
  · exact hgoto (.bare _) (hopen.addChar c)

theorem sound_readSingle
    {word : OpenWord} (hword : word.Sound ∧ word ≠ []) (c : Char) :
    (readSingle word c).Sound := by
  unfold readSingle
  split_ifs
  · exact hword
  · exact hword
  · exact hword.1.addChar c

theorem sound_readDouble
    {word : OpenWord} (hword : word.Sound ∧ word ≠ []) (c : Char) :
    (readDouble word c).Sound := by
  unfold readDouble
  split_ifs
  · exact hword
  · exact hword
  · exact ⟨hword, Or.inl rfl⟩
  · exact hword.1.addChar c

theorem sound_readDoubleEscape
    {word : OpenWord} (hword : word.Sound ∧ word ≠ []) (c : Char) :
    (readDoubleEscape word c).Sound ∧ readDoubleEscape word c ≠ [] := by
  unfold readDoubleEscape
  split_ifs
  · exact hword.1.addChar '\n'
  · exact hword.1.addChar '\t'
  · exact hword.1.addChar c
  · exact hword
  · exact (hword.1.addChar '\\').1.addChar c

/-- A character carries a sound line on, or ends it as a sound one. -/
theorem sound_readLine {line : OpenLine} (hline : line.Sound) (c : Char) :
    Sum.elim OpenLine.Sound Line.Sound (readLine line c) := by
  have houtside : ∀ {word : Option OpenWord} {read : OpenLine ⊕ Line},
      (∀ w ∈ word, w.Sound ∧ w ≠ []) →
      (∀ next, readBare line word c = some next → read = .inl next) →
      (readBare line word c = none → read = .inr (line.close word)) →
      Sum.elim OpenLine.Sound Line.Sound read := by
    intro word read hword hgoes hends
    cases hbare : readBare line word c with
    | some next =>
      rw [hgoes next hbare]
      exact sound_readBare hline hword hbare
    | none =>
      rw [hends hbare]
      exact OpenLine.sound_close hline hword
  have hinside : ∀ cursor : Cursor, cursor.Sound →
      Sum.elim OpenLine.Sound Line.Sound (.inl (line.goto cursor)) :=
    fun _ hcursor => ⟨hline.words, hcursor⟩
  have hcursor := hline.cursor
  unfold readLine
  cases hplace : line.cursor with
  | gap =>
    have hword : ∀ w ∈ (none : Option OpenWord), w.Sound ∧ w ≠ [] := by simp
    exact houtside hword (fun _ hbare => by simp [hbare]) fun hbare => by simp [hbare]
  | remark =>
    by_cases hend : c = '\n'
    · simp only [if_pos hend]
      exact OpenLine.sound_close hline (by simp)
    · simp only [if_neg hend]
      exact hline
  | bare word =>
    rw [hplace] at hcursor
    have hword : ∀ w ∈ some word, w.Sound ∧ w ≠ [] := by simpa [Cursor.Sound] using hcursor
    exact houtside hword (fun _ hbare => by simp [hbare]) fun hbare => by simp [hbare]
  | escape word =>
    rw [hplace] at hcursor
    have hword : ∀ w ∈ word, w.Sound ∧ w ≠ [] := by
      cases word with
      | none => simp
      | some w => simpa [Cursor.Sound] using hcursor
    by_cases hend : c = '\n'
    · simp only [if_pos hend]
      exact OpenLine.sound_endWord hline hword
    · simp only [if_neg hend]
      apply hinside
      cases word with
      | none => exact OpenWord.sound_nil.addChar c
      | some w => exact (hword w rfl).1.addChar c
  | name word letters =>
    rw [hplace] at hcursor
    by_cases hextends : extendsName letters c
    · simp only [if_pos hextends]
      exact hinside (.name word (c :: letters)) ⟨hcursor.1, hcursor.2.cons hextends⟩
    · simp only [if_neg hextends]
      have hword : ∀ w ∈ some (endName word letters), w.Sound ∧ w ≠ [] := by
        simpa using sound_endName hcursor.1 hcursor.2
      exact houtside hword (fun _ hbare => by simp [hbare]) fun hbare => by simp [hbare]
  | single word =>
    rw [hplace] at hcursor
    exact hinside _ (sound_readSingle hcursor c)
  | singleEscape word =>
    rw [hplace] at hcursor
    by_cases hliteral : c = '\'' ∨ c = '\\'
    · simp only [if_pos hliteral]
      exact hinside (.single _) (hcursor.1.addChar c)
    · simp only [if_neg hliteral]
      exact hinside _ (sound_readSingle (hcursor.1.addChar '\\') c)
  | double word =>
    rw [hplace] at hcursor
    exact hinside _ (sound_readDouble hcursor c)
  | doubleEscape word =>
    rw [hplace] at hcursor
    exact hinside (.double _) (sound_readDoubleEscape hcursor c)
  | doubleName word letters =>
    rw [hplace] at hcursor
    by_cases hextends : extendsName letters c
    · simp only [if_pos hextends]
      exact hinside (.doubleName word (c :: letters)) ⟨hcursor.1, hcursor.2.cons hextends⟩
    · simp only [if_neg hextends]
      exact hinside _ (sound_readDouble (sound_endName hcursor.1.1 hcursor.2) c)

end Scan

/-! ## The logical lines -/

def Place.Sound : Place → Prop
  | .indent _ | .comment => True
  | .within line => line.Sound

structure Scan.Sound (scan : Scan) : Prop where
  lines : ∀ line ∈ scan.lines, Line.Sound line
  place : scan.place.Sound

namespace Scan

theorem sound_advance
    {scan : Scan} (hlines : ∀ line ∈ scan.lines, Line.Sound line) {line : OpenLine}
    (hline : line.Sound) (c : Char) : (advance scan line c).Sound := by
  have hread := sound_readLine hline c
  unfold advance
  cases hresult : readLine line c with
  | inl next =>
    rw [hresult] at hread
    exact ⟨hlines, hread⟩
  | inr ended =>
    rw [hresult] at hread
    exact ⟨List.forall_mem_cons.mpr ⟨hread, hlines⟩, trivial⟩

theorem sound_read {scan : Scan} (hscan : scan.Sound) (c : Char) : (read scan c).Sound := by
  unfold read
  cases hplace : scan.place with
  | indent width =>
    have hopen : OpenLine.Sound ⟨scan.number, width, [], .gap⟩ :=
      ⟨by simp, trivial⟩
    dsimp only
    split_ifs
    · exact ⟨hscan.lines, trivial⟩
    · exact ⟨List.forall_mem_cons.mpr ⟨trivial, hscan.lines⟩, trivial⟩
    · exact ⟨hscan.lines, trivial⟩
    · exact ⟨hscan.lines, trivial⟩
    · exact sound_advance hscan.lines hopen c
  | comment =>
    dsimp only
    split_ifs
    · exact ⟨hscan.lines, trivial⟩
    · exact hscan
  | within line =>
    have hline := hscan.place
    rw [hplace] at hline
    exact sound_advance hscan.lines hline c

theorem sound_step {scan : Scan} (hscan : scan.Sound) (c : Char) : (step scan c).Sound :=
  ⟨(sound_read hscan c).lines, (sound_read hscan c).place⟩

theorem sound_foldl {scan : Scan} (hscan : scan.Sound) (text : List Char) :
    (text.foldl step scan).Sound := by
  induction text generalizing scan with
  | nil => exact hscan
  | cons c rest ih => exact ih (sound_step hscan c)

theorem sound_finish
    {scan : Scan} (hscan : scan.Sound) {lines : List Line}
    (hfinish : scan.finish = .ok lines) : ∀ line ∈ lines, Line.Sound line := by
  have hclosed : ∀ (line : OpenLine) (word : Option OpenWord), line.Sound →
      (∀ w ∈ word, w.Sound ∧ w ≠ []) →
      ∀ other ∈ (line.close word :: scan.lines).reverse, Line.Sound other := by
    intro line word hline hword other hother
    rcases List.mem_cons.mp (List.mem_reverse.mp hother) with rfl | hold
    · exact OpenLine.sound_close hline hword
    · exact hscan.lines other hold
  have hplace := hscan.place
  unfold finish at hfinish
  cases hwhere : scan.place with
  | indent width =>
    simp only [hwhere] at hfinish
    obtain rfl := Except.ok.inj hfinish
    exact fun line hline => hscan.lines line (List.mem_reverse.mp hline)
  | comment =>
    simp only [hwhere] at hfinish
    obtain rfl := Except.ok.inj hfinish
    exact fun line hline => hscan.lines line (List.mem_reverse.mp hline)
  | within line =>
    rw [hwhere] at hplace
    have hcursor := hplace.cursor
    simp only [hwhere] at hfinish
    cases hat : line.cursor with
    | gap | remark =>
      simp only [hat] at hfinish
      obtain rfl := Except.ok.inj hfinish
      exact hclosed line none hplace (by simp)
    | bare word =>
      rw [hat] at hcursor
      simp only [hat] at hfinish
      obtain rfl := Except.ok.inj hfinish
      exact hclosed line (some word) hplace (by simpa [Cursor.Sound] using hcursor)
    | name word letters =>
      rw [hat] at hcursor
      simp only [hat] at hfinish
      obtain rfl := Except.ok.inj hfinish
      exact hclosed line (some (endName word letters)) hplace
        (by simpa using sound_endName hcursor.1 hcursor.2)
    | escape | single | singleEscape | double | doubleEscape | doubleName =>
      simp [hat] at hfinish

end Scan

/-- Every word that a source spells is well formed. -/
theorem sound_of_lines
    {text : List Char} {lines : List Line} (hlines : Language.lines text = .ok lines) :
    ∀ line ∈ lines, Line.Sound line := by
  have hinitial : Scan.initial.Sound := ⟨by simp [Scan.initial], trivial⟩
  exact Scan.sound_finish (Scan.sound_foldl hinitial text) hlines

/-! ## Statements -/

namespace Clause

theorem isName_of_nameOf
    {command : String} {word : Word} {name : String}
    (hname : nameOf command word = .ok name) : isName name := by
  unfold nameOf at hname
  split at hname
  · split_ifs at hname with hvalid
    obtain rfl := Except.ok.inj hname
    exact hvalid
  · cases hname

theorem wellFormed_of_ofCommand
    {args : List Word} (hargs : ∀ word ∈ args, Word.WellFormed word)
    {command : String} {stmt : Stmt} (hclause : ofCommand command args = .ok (.whole stmt)) :
    stmt.WellFormed := by
  unfold ofCommand at hclause
  split at hclause
  · cases hclause
    exact hargs
  · cases hclause
    exact hargs
  -- `set` and `unset`
  · cases args with
    | nil => cases hclause
    | cons first rest =>
      obtain ⟨name, hname, hstmt⟩ := exists_of_map_eq_ok hclause
      obtain rfl := Clause.whole.inj hstmt
      exact ⟨isName_of_nameOf hname, (List.forall_mem_cons.mp hargs).2⟩
  · split at hclause
    · obtain ⟨name, hname, hstmt⟩ := exists_of_map_eq_ok hclause
      obtain rfl := Clause.whole.inj hstmt
      exact isName_of_nameOf hname
    · cases hclause
  -- `cd`
  · split at hclause
    · cases hclause
      simp [Stmt.WellFormed]
    · cases hclause
      simpa [Stmt.WellFormed] using hargs
    · cases hclause
  -- `true` and `false`
  · split_ifs at hclause
    cases hclause
    trivial
  · split_ifs at hclause
    cases hclause
    trivial
  -- `exit`
  · split at hclause
    · cases hclause
      trivial
    · obtain ⟨code, -, hstmt⟩ := exists_of_map_eq_ok hclause
      obtain rfl := Clause.whole.inj hstmt
      trivial
    · cases hclause
  · cases hclause
    exact hargs
  · cases hclause
    exact hargs
  -- the head of a repetition is no whole statement
  · obtain ⟨count, -, hhead⟩ := exists_of_map_eq_ok hclause
    cases hhead
  · cases hclause

theorem wellFormed_of_ofWords
    {words : List Word} (hwords : ∀ word ∈ words, Word.WellFormed word) {stmt : Stmt}
    (hclause : ofWords words = .ok (.whole stmt)) : stmt.WellFormed := by
  cases words with
  | nil => cases hclause
  | cons command args =>
    unfold ofWords at hclause
    dsimp only at hclause
    split at hclause
    · exact wellFormed_of_ofCommand (List.forall_mem_cons.mp hwords).2 hclause
    · cases hclause

end Clause

/-! ## Blocks -/

def Block.Sound (block : Block) : Prop :=
  ∀ stmt ∈ block.stmts, stmt.WellFormed

structure Blocks.Sound (blocks : Blocks) : Prop where
  inner : blocks.inner.Sound
  outer : ∀ entry ∈ blocks.outer, Block.Sound entry.2

theorem Block.Sound.push
    {block : Block} (hblock : block.Sound) {stmt : Stmt} (hstmt : stmt.WellFormed) :
    (block.push stmt).Sound :=
  List.forall_mem_cons.mpr ⟨hstmt, hblock⟩

namespace Blocks

/-- A block that ends becomes the body of a repetition, which is not empty. -/
theorem sound_settle
    {keep : Head → Bool} {inner : Block} {outer : List (Head × Block)}
    (hinner : inner.Sound) (houter : ∀ entry ∈ outer, Block.Sound entry.2)
    {blocks : Blocks} (hsettle : settle keep inner outer = .ok blocks) : blocks.Sound := by
  induction outer generalizing inner with
  | nil =>
    obtain rfl := Except.ok.inj hsettle
    exact ⟨hinner, houter⟩
  | cons entry rest ih =>
    obtain ⟨head, block⟩ := entry
    obtain ⟨hblock, hrest⟩ := List.forall_mem_cons.mp houter
    unfold settle at hsettle
    split_ifs at hsettle with hkeep hempty
    · obtain rfl := Except.ok.inj hsettle
      exact ⟨hinner, houter⟩
    · have hbody : (Stmt.loop head.count inner.stmts.reverse).WellFormed := by
        refine ⟨?_, Stmt.allWellFormed_iff.mpr ?_⟩
        · simpa using hempty
        · exact fun stmt hstmt => hinner stmt (List.mem_reverse.mp hstmt)
      exact ih (hblock.push hbody) hrest hsettle

/-- Blocks fail to end for the innermost repetition alone, where it has no body. -/
theorem exists_of_settle_eq_error
    {keep : Head → Bool} {inner : Block} {outer : List (Head × Block)} {e : ParseError}
    (hsettle : settle keep inner outer = .error e) :
    ∃ head block rest, outer = (head, block) :: rest ∧ keep head = false ∧
      inner.stmts = [] ∧ e = .malformed .missingBlock (head.number + 1) 1 := by
  induction outer generalizing inner with
  | nil => cases hsettle
  | cons entry rest ih =>
    obtain ⟨head, block⟩ := entry
    unfold settle at hsettle
    split_ifs at hsettle with hkeep hempty
    · exact ⟨head, block, rest, rfl, by simpa using hkeep, by simpa using hempty,
        (Except.error.inj hsettle).symm⟩
    · obtain ⟨-, -, -, -, -, hpushed, -⟩ := ih hsettle
      cases hpushed

/-- All that a line of words does: it ends blocks, and what it says stands behind them. -/
theorem exists_of_step_code
    {blocks next : Blocks} {number indent : Nat} {words : List Word}
    (hstep : blocks.step (.code number indent words) = .ok next) :
    ∃ settled clause,
      settle (fun head => head.indent < indent) blocks.inner blocks.outer = .ok settled ∧
      settled.indentFault? indent = none ∧ Clause.ofWords words = .ok clause ∧
      next = settled.add number indent clause := by
  obtain ⟨settled, hsettle, hadd⟩ := exists_of_bind_eq_ok hstep
  split at hadd
  · cases hadd
  · rename_i hindent
    split at hadd
    · rename_i clause hclause
      exact ⟨settled, clause, hsettle, hindent, hclause, (Except.ok.inj hadd).symm⟩
    · cases hadd

theorem sound_step
    {blocks next : Blocks} (hblocks : blocks.Sound) {line : Line} (hline : line.Sound)
    (hstep : blocks.step line = .ok next) : next.Sound := by
  cases line with
  | blank => exact sound_settle hblocks.inner hblocks.outer hstep
  | code number indent words =>
    obtain ⟨settled, clause, hsettle, -, hclause, rfl⟩ := exists_of_step_code hstep
    have hsettled := sound_settle hblocks.inner hblocks.outer hsettle
    cases clause with
    | whole stmt =>
      have hstmt := Clause.wellFormed_of_ofWords hline hclause
      exact ⟨List.forall_mem_cons.mpr ⟨hstmt, hsettled.inner⟩, hsettled.outer⟩
    | head count =>
      exact ⟨by simp [add, Block.empty, Block.Sound],
        List.forall_mem_cons.mpr ⟨hsettled.inner, hsettled.outer⟩⟩

theorem sound_foldlM
    {blocks next : Blocks} (hblocks : blocks.Sound) {lines : List Line}
    (hlines : ∀ line ∈ lines, Line.Sound line)
    (hfold : lines.foldlM step blocks = .ok next) : next.Sound := by
  induction lines generalizing blocks with
  | nil =>
    obtain rfl := Except.ok.inj hfold
    exact hblocks
  | cons line rest ih =>
    obtain ⟨hline, hrest⟩ := List.forall_mem_cons.mp hlines
    obtain ⟨middle, hstep, hmore⟩ := exists_of_bind_eq_ok hfold
    exact ih (sound_step hblocks hline hstep) hrest hmore

/-- The end of a source ends every open block, if the mode lets it. -/
theorem exists_settled_of_finish
    {mode : Mode} {blocks : Blocks} {program : Program}
    (hfinish : finish mode blocks = .ok program) :
    ∃ settled, settle (fun _ => false) blocks.inner blocks.outer = .ok settled ∧
      program = settled.inner.stmts.reverse := by
  cases mode with
  | single =>
    unfold finish at hfinish
    split_ifs at hfinish with houter
    rw [List.isEmpty_iff.mp houter]
    exact ⟨⟨blocks.inner, []⟩, rfl, (Except.ok.inj hfinish).symm⟩
  | exec =>
    obtain ⟨settled, hsettle, hstmts⟩ := exists_of_bind_eq_ok hfinish
    exact ⟨settled, hsettle, (Except.ok.inj hstmts).symm⟩

theorem wellFormed_of_finish
    {mode : Mode} {blocks : Blocks} (hblocks : blocks.Sound) {program : Program}
    (hfinish : finish mode blocks = .ok program) : program.WellFormed := by
  obtain ⟨settled, hsettle, rfl⟩ := exists_settled_of_finish hfinish
  have hsettled := sound_settle hblocks.inner hblocks.outer hsettle
  exact Stmt.allWellFormed_iff.mpr fun stmt hstmt =>
    hsettled.inner stmt (List.mem_reverse.mp hstmt)

end Blocks

/-- In either mode, whatever a source spells is well formed. -/
theorem wellFormed_of_parse
    {mode : Mode} {source : String} {program : Program}
    (hparse : parse mode source = .ok program) : program.WellFormed := by
  have hinitial : Blocks.initial.Sound :=
    ⟨by simp [Blocks.initial, Block.empty, Block.Sound], by simp [Blocks.initial]⟩
  unfold parse at hparse
  split at hparse
  · rename_i found hlines
    obtain ⟨blocks, hfold, hfinish⟩ := exists_of_bind_eq_ok hparse
    have hblocks := Blocks.sound_foldlM hinitial (sound_of_lines hlines) hfold
    exact Blocks.wellFormed_of_finish hblocks hfinish
  · cases hparse

end Language
end LineShell
