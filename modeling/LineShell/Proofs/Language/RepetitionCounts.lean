import LineShell.Proofs.Language.LineEnds
import LineShell.Proofs.Language.Zone
import LineShell.Proofs.Text.Spelled

/-!
# Counts of repetitions

The words behind `repeat` are put together, with nothing in between, before a count is read
from them.  What they spell in front of the colon is one numeral with blanks around it, and
each repetition of a program has the count that its head spells.  One word alone spells it
only if the other words hold nothing but blanks and colons.
-/

namespace LineShell
namespace Language

open Text

/-! ## Words that spell a count -/

/-- Neither a blank nor a colon, so part of what a word says. -/
def tells (c : Char) : Bool :=
  !isBlank c && c != ':'

def speaks (text : String) : Bool :=
  text.toList.any tells

/-- Texts that, put together, spell a count with a colon behind it. -/
def SpelledTogether (texts : List String) (count : UInt32) : Prop :=
  ∃ text, (String.join texts).toList = text ++ [':'] ∧ SpellsCount text count

/-- A word that spells a count, with or without a colon behind it. -/
def CountWord (word : String) (count : UInt32) : Prop :=
  SpellsCount word.toList count ∨ ∃ text, word.toList = text ++ [':'] ∧ SpellsCount text count

/-- One of the words spells the count, and the others say nothing. -/
def CountedByOne (texts : List String) (count : UInt32) : Prop :=
  ∃ before word after, texts = before ++ word :: after ∧ CountWord word count ∧
    ∀ other ∈ before ++ after, speaks other = false

theorem countWord_iff {word : String} {count : UInt32} :
    CountWord word count ↔ Numeral.word32? (trim word.toList) = some count ∨
      (word.toList.getLast? = some ':' ∧
        Numeral.word32? (trim word.toList.dropLast) = some count) := by
  rw [word32?_trim_eq_some_iff, word32?_trim_eq_some_iff]
  apply or_congr_right
  constructor
  · rintro ⟨text, htext, hspelled⟩
    simpa [htext] using hspelled
  · rintro ⟨hlast, hspelled⟩
    exact ⟨word.toList.dropLast, (List.dropLast_append_getLast? _ hlast).symm, hspelled⟩

instance (word : String) (count : UInt32) : Decidable (CountWord word count) :=
  decidable_of_iff _ countWord_iff.symm

theorem tells_of_unsigned
    {numeral : List Char} {n : Nat} (hnumeral : Numeral.Unsigned numeral n) :
    ∀ c ∈ numeral, tells c := by
  intro c hc
  have hcolon : c ≠ ':' := by
    rintro rfl
    exact absurd (hnumeral.of_mem _ hc) (by decide)
  simp [tells, hnumeral.isBlank_of_mem c hc, hcolon]

theorem exists_tells_of_spellsCount
    {text : List Char} {count : UInt32} (hspelled : SpellsCount text count) :
    ∃ c ∈ text, tells c := by
  obtain ⟨front, numeral, back, rfl, -, -, hnumeral⟩ := hspelled
  obtain ⟨c, rest, rfl⟩ := List.exists_cons_of_ne_nil hnumeral.ne_nil
  exact ⟨c, by simp, tells_of_unsigned hnumeral c List.mem_cons_self⟩

theorem speaks_of_countWord
    {word : String} {count : UInt32} (hword : CountWord word count) : speaks word := by
  rw [speaks, List.any_eq_true]
  rcases hword with hspelled | ⟨text, htext, hspelled⟩
  · exact exists_tells_of_spellsCount hspelled
  · obtain ⟨c, hc, htells⟩ := exists_tells_of_spellsCount hspelled
    exact ⟨c, by simp [htext, hc], htells⟩

theorem countP_speaks_eq_one_iff {texts : List String} :
    texts.countP speaks = 1 ↔ ∃ before word after, texts = before ++ word :: after ∧
      speaks word ∧ ∀ other ∈ before ++ after, speaks other = false := by
  constructor
  · intro hone
    obtain ⟨word, hmem, hspeaks⟩ := List.countP_pos_iff.mp (hone ▸ Nat.one_pos)
    obtain ⟨before, after, rfl⟩ := List.append_of_mem hmem
    rw [List.countP_append, List.countP_cons_of_pos hspeaks] at hone
    have hnone : (before ++ after).countP speaks = 0 := by
      rw [List.countP_append]
      omega
    refine ⟨before, word, after, rfl, hspeaks, fun other hother => ?_⟩
    simpa using List.countP_eq_zero.mp hnone other hother
  · rintro ⟨before, word, after, rfl, hspeaks, hothers⟩
    have hnone : (before ++ after).countP speaks = 0 :=
      List.countP_eq_zero.mpr fun other hother => by simp [hothers other hother]
    rw [List.countP_append] at hnone
    rw [List.countP_append, List.countP_cons_of_pos hspeaks]
    omega

/-- Text that tells nothing reaches no further than to what tells something. -/
theorem extends_of_append_eq
    {quiet more front spelled rest : List Char}
    (hsame : quiet ++ more = front ++ (spelled ++ rest)) (hne : spelled ≠ [])
    (hquiet : ∀ c ∈ quiet, tells c = false) (hspelled : ∀ c ∈ spelled, tells c) :
    ∃ near, front = quiet ++ near := by
  rcases List.append_eq_append_iff.mp hsame with ⟨near, hfront, -⟩ | ⟨excess, rfl, hexcess⟩
  · exact ⟨near, hfront⟩
  · cases excess with
    | nil => exact ⟨[], by simp⟩
    | cons c others =>
      obtain ⟨d, digits, rfl⟩ := List.exists_cons_of_ne_nil hne
      obtain ⟨rfl, -⟩ := List.cons.inj hexcess
      have htells := hspelled d List.mem_cons_self
      rw [hquiet d (by simp)] at htells
      cases htells

/-- What tells something stands whole within the one part that tells anything. -/
theorem exists_of_append_eq
    {before word after front spelled back : List Char}
    (hsame : before ++ (word ++ after) = front ++ (spelled ++ back)) (hne : spelled ≠ [])
    (hbefore : ∀ c ∈ before, tells c = false) (hafter : ∀ c ∈ after, tells c = false)
    (hspelled : ∀ c ∈ spelled, tells c) :
    ∃ near far, front = before ++ near ∧ word = near ++ (spelled ++ far) ∧
      back = far ++ after := by
  obtain ⟨near, rfl⟩ := extends_of_append_eq hsame hne hbefore hspelled
  have hturned : after.reverse ++ (before ++ word).reverse =
      back.reverse ++ (spelled.reverse ++ (before ++ near).reverse) := by
    simpa using congrArg List.reverse hsame
  obtain ⟨far, hfar⟩ := extends_of_append_eq hturned (by simpa using hne)
    (by simpa using hafter) (by simpa using hspelled)
  have hback : back = far.reverse ++ after := by
    simpa using congrArg List.reverse hfar
  refine ⟨near, far.reverse, rfl, ?_, hback⟩
  have hword : word ++ after = near ++ (spelled ++ far.reverse) ++ after := by
    rw [hback, List.append_assoc before, List.append_cancel_left_eq] at hsame
    simpa using hsame
  exact List.append_cancel_right hword

theorem tells_eq_false_of_join
    {texts : List String} (hquiet : ∀ text ∈ texts, speaks text = false) :
    ∀ c ∈ (String.join texts).toList, tells c = false := by
  intro c hc
  rw [String.toList_join, List.mem_flatMap] at hc
  obtain ⟨text, hmem, hc⟩ := hc
  have hnone := hquiet text hmem
  rw [speaks, List.any_eq_false] at hnone
  simpa using hnone c hc

theorem SpelledTogether.countedByOne_iff
    {texts : List String} {count : UInt32} (htogether : SpelledTogether texts count) :
    CountedByOne texts count ↔ texts.countP speaks = 1 := by
  rw [countP_speaks_eq_one_iff]
  constructor
  · rintro ⟨before, word, after, rfl, hword, hothers⟩
    exact ⟨before, word, after, rfl, speaks_of_countWord hword, hothers⟩
  rintro ⟨before, word, after, rfl, -, hothers⟩
  obtain ⟨hbefore, hafter⟩ := List.forall_mem_append.mp hothers
  obtain ⟨text, hjoin, front, numeral, back, rfl, hfront, hback, hnumeral⟩ := htogether
  have hsame : (String.join before).toList ++ (word.toList ++ (String.join after).toList) =
      front ++ (numeral ++ (back ++ [':'])) := by
    simpa [String.join_append, String.join_cons] using hjoin
  obtain ⟨near, far, rfl, hword, hfar⟩ := exists_of_append_eq hsame hnumeral.ne_nil
    (tells_eq_false_of_join hbefore) (tells_eq_false_of_join hafter) (tells_of_unsigned hnumeral)
  have hnear := (List.forall_mem_append.mp hfront).2
  refine ⟨before, word, after, rfl, ?_, hothers⟩
  -- the colon stands behind the numeral in the one word, or in a word behind it
  rcases List.append_eq_append_iff.mp hfar with ⟨colon, rfl, hcolon⟩ | ⟨blanks, rfl, -⟩
  · rcases List.append_eq_singleton_iff.mp hcolon.symm with ⟨rfl, -⟩ | ⟨rfl, -⟩
    · exact Or.inl ⟨near, numeral, back, by simp [hword], hnear, hback, hnumeral⟩
    · exact Or.inr ⟨near ++ numeral ++ back, by simp [hword], near, numeral, back, rfl, hnear,
        hback, hnumeral⟩
  · exact Or.inl ⟨near, numeral, far, by simp [hword], hnear,
      (List.forall_mem_append.mp hback).1, hnumeral⟩

/-! ## Heads -/

/-- The words behind the first one of a line, if that one is `repeat`. -/
def headArgs? : List Word → Option (List Word)
  | [] => none
  | command :: args => if command.literal? = some "repeat" then some args else none

def Line.headArgs? : Line → Option (List Word)
  | .blank => none
  | .code _ _ words => Language.headArgs? words

mutual

/-- The counts of the repetitions of a statement, in the order of their heads. -/
def Stmt.counts : Stmt → List UInt32
  | .loop count body => count :: Program.counts body
  | _ => []

def Program.counts : Program → List UInt32
  | [] => []
  | first :: rest => Stmt.counts first ++ Program.counts rest

end

theorem Program.counts_append (first second : Program) :
    Program.counts (first ++ second) = Program.counts first ++ Program.counts second := by
  induction first with
  | nil => simp [Program.counts]
  | cons stmt rest ih =>
    rw [List.cons_append, Program.counts, Program.counts, ih, List.append_assoc]

namespace Clause

theorem countOf_eq_ok_iff {words : List Word} {count : UInt32} :
    countOf words = .ok count ↔
      ∃ texts, words.mapM Word.literal? = some texts ∧ SpelledTogether texts count := by
  unfold countOf
  cases htexts : words.mapM Word.literal? with
  | none => simp
  | some texts =>
    dsimp only
    constructor
    · intro hread
      split at hread
      · rename_i rest hrest
        split at hread
        · rename_i found hfound
          obtain rfl := Except.ok.inj hread
          refine ⟨texts, rfl, rest.reverse, ?_, word32?_trim_eq_some_iff.mp hfound⟩
          simpa using congrArg List.reverse hrest
        · cases hread
      · cases hread
    · rintro ⟨others, hothers, text, hjoin, hspelled⟩
      obtain rfl := Option.some.inj hothers
      have hturned : (String.join texts).toList.reverse = ':' :: text.reverse := by
        rw [hjoin, List.reverse_append]
        rfl
      rw [hturned]
      simp [word32?_trim_eq_some_iff.mpr hspelled]

/-- The counts of what a line says: that of a head, and none of a whole statement. -/
def counts : Clause → List UInt32
  | whole stmt => stmt.counts
  | head count => [count]

theorem counts_of_ofCommand
    {command : String} (hcommand : command ≠ "repeat") {args : List Word} {clause : Clause}
    (hclause : ofCommand command args = .ok clause) : clause.counts = [] := by
  unfold ofCommand at hclause
  split at hclause
  · cases hclause
    rfl
  · cases hclause
    rfl
  -- `set` and `unset`
  · split at hclause
    · cases hclause
    · obtain ⟨name, -, rfl⟩ := exists_of_map_eq_ok hclause
      rfl
  · split at hclause
    · obtain ⟨name, -, rfl⟩ := exists_of_map_eq_ok hclause
      rfl
    · cases hclause
  -- `cd`
  · split at hclause
    · cases hclause
      rfl
    · cases hclause
      rfl
    · cases hclause
  -- `true` and `false`
  · split_ifs at hclause
    cases hclause
    rfl
  · split_ifs at hclause
    cases hclause
    rfl
  -- `exit`
  · split at hclause
    · cases hclause
      rfl
    · obtain ⟨code, -, rfl⟩ := exists_of_map_eq_ok hclause
      rfl
    · cases hclause
  · cases hclause
    rfl
  · cases hclause
    rfl
  · exact absurd rfl hcommand
  · cases hclause

/-- A line has a count exactly if it begins with `repeat`, and its other words spell it. -/
theorem counts_of_ofWords
    {words : List Word} {clause : Clause} (hclause : ofWords words = .ok clause) :
    List.Forall₂ (fun args count => countOf args = .ok count)
      (headArgs? words).toList clause.counts := by
  cases words with
  | nil => cases hclause
  | cons command args =>
    unfold ofWords at hclause
    dsimp only at hclause
    split at hclause
    · rename_i name hname
      by_cases hrepeat : name = "repeat"
      · subst hrepeat
        obtain ⟨count, hcount, rfl⟩ := exists_of_map_eq_ok hclause
        rw [headArgs?, if_pos hname]
        exact .cons hcount .nil
      · have hother : command.literal? ≠ some "repeat" := by
          rw [hname]
          exact fun hsame => hrepeat (Option.some.inj hsame)
        rw [counts_of_ofCommand hrepeat hclause, headArgs?, if_neg hother]
        exact .nil
    · cases hclause

end Clause

/-! ## Blocks -/

namespace Blocks

/-- The counts of blocks and of the heads that are open in them, the outermost first. -/
def outerCounts : List (Head × Block) → List UInt32
  | [] => []
  | (head, block) :: rest =>
    outerCounts rest ++ Program.counts block.stmts.reverse ++ [head.count]

/-- The counts of the heads that were read, in their order. -/
def counts (blocks : Blocks) : List UInt32 :=
  outerCounts blocks.outer ++ Program.counts blocks.inner.stmts.reverse

/-- A block that ends becomes a repetition, whose count stands where its head stood. -/
theorem counts_settle
    {keep : Head → Bool} {inner : Block} {outer : List (Head × Block)} {blocks : Blocks}
    (hsettle : settle keep inner outer = .ok blocks) :
    blocks.counts = counts ⟨inner, outer⟩ := by
  induction outer generalizing inner with
  | nil =>
    obtain rfl := Except.ok.inj hsettle
    rfl
  | cons entry rest ih =>
    obtain ⟨head, block⟩ := entry
    unfold settle at hsettle
    split_ifs at hsettle with hkeep hempty
    · obtain rfl := Except.ok.inj hsettle
      rfl
    · rw [ih hsettle]
      simp [counts, outerCounts, Block.push, Program.counts_append, Program.counts, Stmt.counts]

theorem counts_add (blocks : Blocks) (number indent : Nat) (clause : Clause) :
    (blocks.add number indent clause).counts = blocks.counts ++ clause.counts := by
  cases clause with
  | whole stmt =>
    simp [add, counts, Clause.counts, Block.push, Program.counts_append, Program.counts]
  | head count =>
    simp [add, counts, Clause.counts, outerCounts, Block.empty, Program.counts]

/-- A line adds the count that it spells, if it is a head, and no other. -/
theorem counts_step
    {blocks next : Blocks} {line : Line} (hstep : blocks.step line = .ok next) :
    ∃ more, next.counts = blocks.counts ++ more ∧
      List.Forall₂ (fun args count => Clause.countOf args = .ok count)
        line.headArgs?.toList more := by
  cases line with
  | blank => exact ⟨[], by simpa using counts_settle hstep, .nil⟩
  | code number indent words =>
    obtain ⟨settled, clause, hsettle, -, hclause, rfl⟩ := exists_of_step_code hstep
    refine ⟨clause.counts, ?_, Clause.counts_of_ofWords hclause⟩
    rw [counts_add, counts_settle hsettle]

theorem counts_foldlM
    {blocks next : Blocks} {lines : List Line} (hfold : lines.foldlM step blocks = .ok next) :
    ∃ more, next.counts = blocks.counts ++ more ∧
      List.Forall₂ (fun args count => Clause.countOf args = .ok count)
        (lines.filterMap Line.headArgs?) more := by
  induction lines generalizing blocks with
  | nil =>
    obtain rfl := Except.ok.inj hfold
    exact ⟨[], by simp, .nil⟩
  | cons line rest ih =>
    rw [List.foldlM_cons] at hfold
    obtain ⟨middle, hstep, hrest⟩ := exists_of_bind_eq_ok hfold
    obtain ⟨first, hfirst, hspelled⟩ := counts_step hstep
    obtain ⟨more, hmore, hothers⟩ := ih hrest
    refine ⟨first ++ more, by rw [hmore, hfirst, List.append_assoc], ?_⟩
    have hsplit : (line :: rest).filterMap Line.headArgs? =
        line.headArgs?.toList ++ rest.filterMap Line.headArgs? := by
      cases hargs : line.headArgs? <;> simp [hargs]
    rw [hsplit]
    exact List.rel_append hspelled hothers

theorem counts_finish
    {mode : Mode} {blocks : Blocks} {program : Program}
    (hfinish : finish mode blocks = .ok program) : blocks.counts = program.counts := by
  obtain ⟨settled, hsettle, rfl⟩ := exists_settled_of_finish hfinish
  rw [← counts_settle hsettle, counts, settle_all_outer hsettle]
  rfl

/-- A head that spells no count is malformed, whatever stands behind it. -/
theorem ofLines_malformed
    {lines : List Line} {args : List Word} (hmem : args ∈ lines.filterMap Line.headArgs?)
    (hnone : ∀ count, Clause.countOf args ≠ .ok count) (mode : Mode) :
    ∃ cause line column, ofLines mode lines = .error (.malformed cause line column) := by
  unfold ofLines
  cases hfold : lines.foldlM step initial with
  | error fault =>
    cases fault with
    | unfinished cause => exact absurd hfold (foldlM_step_ne_unfinished initial lines cause)
    | malformed cause line column => exact ⟨cause, line, column, rfl⟩
  | ok blocks =>
    obtain ⟨counts, -, hspelled⟩ := counts_foldlM hfold
    obtain ⟨at', hat, rfl⟩ := List.getElem_of_mem hmem
    have hcount := hspelled.get hat (hspelled.length_eq ▸ hat)
    exact absurd hcount (hnone _)

end Blocks

/-- In either mode, the counts of a program are those that the heads of the source spell, in
order: the words of a head are literal and together spell one numeral, with blanks around
it, and a colon, and one word alone spells the count exactly if it is the only one with
anything but blanks and colons.  A source with another head is malformed. -/
theorem head_words_spell_count_together (mode : Mode) (source : String) :
    (∀ program, parse mode source = .ok program →
      ∃ found, lines source.toList = .ok found ∧
        List.Forall₂ (fun args count => ∃ texts, args.mapM Word.literal? = some texts ∧
            SpelledTogether texts count ∧
            (CountedByOne texts count ↔ texts.countP speaks = 1))
          (found.filterMap Line.headArgs?) program.counts) ∧
      ∀ found args, lines source.toList = .ok found →
        args ∈ found.filterMap Line.headArgs? →
        (∀ texts count, args.mapM Word.literal? = some texts → ¬ SpelledTogether texts count) →
        ∃ cause line column, parse mode source = .error (.malformed cause line column) := by
  constructor
  · intro program hparse
    unfold parse at hparse
    split at hparse
    · rename_i found hlines
      obtain ⟨blocks, hfold, hfinish⟩ := exists_of_bind_eq_ok hparse
      obtain ⟨counts, hcounts, hspelled⟩ := Blocks.counts_foldlM hfold
      have hprogram : program.counts = counts := by
        rw [← Blocks.counts_finish hfinish, hcounts]
        rfl
      refine ⟨found, hlines, ?_⟩
      rw [hprogram]
      refine hspelled.imp ?_
      intro args count hcount
      obtain ⟨texts, htexts, htogether⟩ := Clause.countOf_eq_ok_iff.mp hcount
      exact ⟨texts, htexts, htogether, htogether.countedByOne_iff⟩
    · cases hparse
  · intro found args hlines hmem hnone
    rw [parse, hlines]
    refine Blocks.ofLines_malformed hmem ?_ mode
    intro count hcount
    obtain ⟨texts, htexts, htogether⟩ := Clause.countOf_eq_ok_iff.mp hcount
    exact hnone texts count htexts htogether

/-- A quoted count with an empty word behind it counts alone, and two words with a line end
between them count together; a word that spells nothing makes a head malformed. -/
theorem quoted_and_split_counts :
    let nested := "repeat ' 2' '' :\n  repeat 1 \\\n 2:\n    true\n"
    let wrong := "repeat 2 x:\n  true\n"
    parse .exec nested = .ok [.loop 2 [.loop 12 [.succeed]]] ∧
      CountedByOne [" 2", "", ":"] 2 ∧ ¬ CountedByOne ["1", "2:"] 12 ∧
      ∃ cause line column, parse .exec wrong = .error (.malformed cause line column) := by
  intro nested wrong
  have hnested : parse .exec nested = .ok [.loop 2 [.loop 12 [.succeed]]] := by
    unfold nested
    rfl
  obtain ⟨found, hlines, hspelled⟩ :=
    (head_words_spell_count_together .exec nested).1 _ hnested
  have hheads : (lines nested.toList).map (List.filterMap Line.headArgs?) =
      .ok [[[.lit " 2"], [.lit ""], [.lit ":"]], [[.lit "1"], [.lit "2:"]]] := by
    unfold nested
    rfl
  rw [hlines] at hheads
  rw [Except.ok.inj hheads] at hspelled
  obtain ⟨⟨outer, houter, -, hone⟩, hrest⟩ := List.forall₂_cons.mp hspelled
  obtain ⟨⟨inner, hinner, -, htwo⟩, -⟩ := List.forall₂_cons.mp hrest
  obtain rfl : outer = [" 2", "", ":"] := (Option.some.inj houter).symm
  obtain rfl : inner = ["1", "2:"] := (Option.some.inj hinner).symm
  have hwrong : lines wrong.toList = .ok
      [.code 1 0 [[.lit "repeat"], [.lit "2"], [.lit "x:"]], .code 2 2 [[.lit "true"]]] := by
    unfold wrong
    rfl
  have hnone : ∀ texts count, [[.lit "2"], [.lit "x:"]].mapM Word.literal? = some texts →
      ¬ SpelledTogether texts count := by
    intro texts count htexts htogether
    have hcount : Clause.countOf [[.lit "2"], [.lit "x:"]] = .ok count :=
      Clause.countOf_eq_ok_iff.mpr ⟨texts, htexts, htogether⟩
    have hfault : Clause.countOf [[.lit "2"], [.lit "x:"]] = .error .invalidCount := rfl
    rw [hfault] at hcount
    cases hcount
  exact ⟨hnested, hone.mpr (by decide), fun hboth => absurd (htwo.mp hboth) (by decide),
    (head_words_spell_count_together .exec wrong).2 _ _ hwrong (by decide) hnone⟩

/-- Two words are read as one count, which neither of them spells. -/
theorem separate_words_read_as_one_count :
    let source := "repeat 1 2:\n  true\n"
    (lines source.toList).map (List.filterMap Line.headArgs?) =
        .ok [[[.lit "1"], [.lit "2:"]]] ∧
      parse .exec source = .ok [.loop 12 [.succeed]] ∧
      ∀ word ∈ ["1", "2:"], ¬ CountWord word 12 := by
  intro source
  refine ⟨?_, ?_, by decide⟩
  · unfold source
    rfl
  · unfold source
    rfl

end Language
end LineShell
