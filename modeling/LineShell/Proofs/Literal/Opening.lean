import LineShell.Proofs.Literal.Closing
import Mathlib.Tactic

/-!
# Where a literal opens

The letters and the quotes that open a literal are read back from the first quote on, by
offsets into the source.  All of them are ASCII, so what is cut out of the source there
begins and ends between characters, whatever stands around it.
-/

namespace LineShell
namespace Literal

open Text

variable {isWord : Char → Bool} {text : List Char} {front back : Bytes} {b : UInt8}
variable {kind : Kind} {look : LookAhead}

/-! ## Parts of a text -/

/-- Whether an offset stands between two characters of a text, or at one of its ends. -/
def isBoundary (text : List Char) (offset : Nat) : Bool :=
  text.inits.any fun front => (Utf8.encodeChars front).length == offset

/-- A part of a text; there is none unless it begins and ends between characters. -/
def sliceText? (text : List Char) (start stop : Nat) : Option Bytes :=
  if isBoundary text start && isBoundary text stop then
    slice? (Utf8.encodeChars text) start stop
  else none

/-- A difference of offsets; there is none below zero. -/
def minus? (m n : Nat) : Option Nat :=
  if n ≤ m then some (m - n) else none

theorem isBoundary_of_append {front back : List Char} :
    isBoundary (front ++ back) (Utf8.encodeChars front).length = true :=
  List.any_eq_true.mpr ⟨front, (List.mem_inits _ _).mpr (List.prefix_append front back),
    beq_self_eq_true _⟩

theorem isBoundary_of_ascii (hb : b.toNat ≤ 0x7F)
    (htext : Utf8.encodeChars text = front ++ b :: back) :
    isBoundary text front.length = true ∧ isBoundary text (front ++ [b]).length = true := by
  obtain ⟨before, c, after, rfl, hbefore, hc⟩ := Utf8.exists_of_encodeChars_eq_append hb htext
  rw [← hc, ← hbefore]
  refine ⟨isBoundary_of_append, ?_⟩
  rw [List.append_cons]
  exact isBoundary_of_append

theorem sliceText?_of_ascii
    {part : Bytes} (hne : part ≠ []) (hpart : ∀ b ∈ part, b.toNat ≤ 0x7F)
    (htext : Utf8.encodeChars text = front ++ part ++ back) :
    sliceText? text front.length (front ++ part).length = some part := by
  have hstart : isBoundary text front.length = true := by
    obtain ⟨b, more, rfl⟩ := List.exists_cons_of_ne_nil hne
    rw [List.append_assoc] at htext
    exact (isBoundary_of_ascii (hpart b List.mem_cons_self) htext).1
  have hstop : isBoundary text (front ++ part).length = true := by
    obtain ⟨more, b, rfl⟩ := (List.eq_nil_or_concat' part).resolve_left hne
    rw [← List.append_assoc, List.append_assoc (front ++ more)] at htext
    have hboundary := (isBoundary_of_ascii (hpart b (by simp)) htext).2
    rwa [List.append_assoc] at hboundary
  rw [sliceText?, hstart, hstop, htext, Bool.and_self, if_pos rfl,
    slice?_of_le (by simp) (by simp), List.take_left, List.drop_left]

/-! ## The literal at a quote -/

/-- What opens a literal stands where it starts: at most two letters, and its quotes. -/
structure Opens (bytes : Bytes) (start : Nat) (kind : Kind) (opening : Bytes) : Prop where
  quote : isQuote kind.quote = true
  letters : ∃ letters : List Char, letters.length ≤ 2 ∧
    (∀ c ∈ letters, isPrefixLetter c = true) ∧
    (kind.raw = letters.any fun c => c == 'r' || c == 'R') ∧
    opening = Utf8.encodeChars letters ++ kind.delimiter
  stands : opening <+: bytes.drop start

/-- The literal that opens with a quote at an offset. -/
def literalAt? (isWord : Char → Bool) (text : List Char) (i : Nat) (quote : UInt8) :
    Option Literal := do
  let bytes := Utf8.encodeChars text
  let near ← slice? bytes (i - window) i
  let letters := prefixOf isWord near
  let start ← minus? i letters.length
  let raw := letters.any fun letter => letter == 114 || letter == 82
  let ahead ← slice? bytes i bytes.length
  let triple := [quote, quote, quote].isPrefixOf ahead
  let body := i + if triple then 3 else 1
  let stop ← findClose? bytes ⟨quote, raw, triple⟩ body
  let opening ← sliceText? text start body
  return ⟨start, stop, opening⟩

theorem ne_of_isQuote (hb : isQuote b = true) : b ≠ 92 := by
  rintro rfl
  cases hb

/-- The parts of a source around the quotes that open a literal. -/
structure Quoted (isWord : Char → Bool) (front rest : Bytes) (kind : Kind)
    (head : Bytes) (letters : List Char) (body : Bytes) : Prop where
  front_eq : front = head ++ Utf8.encodeChars letters
  rest_eq : rest = kind.delimiter ++ body
  quote : isQuote kind.quote = true
  found : prefixOf isWord (front.drop (front.length - window)) = Utf8.encodeChars letters
  length_le : letters.length ≤ 2
  letter : ∀ c ∈ letters, isPrefixLetter c = true
  raw : kind.raw = letters.any fun c => c == 'r' || c == 'R'
  triple : kind.triple = [kind.quote, kind.quote, kind.quote].isPrefixOf rest

theorem exists_letters (isWord : Char → Bool) (front : Bytes) :
    ∃ head letters, front = head ++ Utf8.encodeChars letters ∧
      prefixOf isWord (front.drop (front.length - window)) = Utf8.encodeChars letters ∧
      letters.length ≤ 2 ∧ ∀ c ∈ letters, isPrefixLetter c = true := by
  rcases prefixOf_cases isWord (front.drop (front.length - window)) with
    hnone | ⟨letters, hprefixed, hfound⟩
  · exact ⟨front, [], by simp [Utf8.encodeChars], hnone, by simp, by simp⟩
  · obtain ⟨near, hnear⟩ := hprefixed.exists_eq
    refine ⟨front.take (front.length - window) ++ near, letters, ?_, hfound,
      hprefixed.toLetters.length_le, hprefixed.toLetters.isPrefixLetter_of_mem⟩
    rw [List.append_assoc, ← hnear, List.take_append_drop]

theorem any_raw_encodeChars {letters : List Char}
    (hletters : ∀ c ∈ letters, isPrefixLetter c = true) :
    ((Utf8.encodeChars letters).any fun letter => letter == 114 || letter == 82) =
      letters.any fun c => c == 'r' || c == 'R' := by
  have hall : ∀ c, isPrefixLetter c = true →
      ((String.utf8EncodeChar c).any fun letter => letter == 114 || letter == 82) =
        (c == 'r' || c == 'R') := by
    intro c hc
    exact beq_iff_eq.mp (of_isPrefixLetter (p := fun d =>
      ((String.utf8EncodeChar d).any fun letter => letter == 114 || letter == 82) ==
        (d == 'r' || d == 'R')) (by decide) hc)
  rw [Utf8.encodeChars]
  induction letters with
  | nil => rfl
  | cons c rest ih =>
    obtain ⟨hc, hrest⟩ := List.forall_mem_cons.mp hletters
    rw [List.flatMap_cons, List.any_append, ih hrest, List.any_cons, hall c hc]

theorem exists_body {rest : Bytes}
    (htriple : kind.triple = [kind.quote, kind.quote, kind.quote].isPrefixOf (kind.quote :: rest)) :
    ∃ body, kind.quote :: rest = kind.delimiter ++ body := by
  cases hquotes : kind.triple with
  | false => exact ⟨rest, by rw [Kind.delimiter_single hquotes]; rfl⟩
  | true =>
    obtain ⟨body, hbody⟩ := List.isPrefixOf_iff_prefix.mp (htriple.symm.trans hquotes)
    exact ⟨body, by rw [Kind.delimiter_triple hquotes, hbody]⟩

theorem exists_quoted (isWord : Char → Bool) (hb : isQuote b = true) (front rest : Bytes) :
    ∃ kind head letters body, kind.quote = b ∧
      Quoted isWord front (b :: rest) kind head letters body := by
  obtain ⟨head, letters, hfront, hfound, hlength, hletter⟩ := exists_letters isWord front
  let kind : Kind :=
    ⟨b, letters.any fun c => c == 'r' || c == 'R', [b, b, b].isPrefixOf (b :: rest)⟩
  obtain ⟨body, hbody⟩ := exists_body (rfl : kind.triple = _)
  exact ⟨kind, head, letters, body, rfl, hfront, hbody, hb, hfound, hlength, hletter, rfl, rfl⟩

/-! ## The look ahead at a quote -/

theorem read_third_quote (hmode : look.mode = .twoQuotes kind) :
    look.read isWord kind.quote =
      { look with
        last := look.last.map fun literal =>
          { literal with stop := none, opening := literal.opening ++ [kind.quote, kind.quote] }
        mode := .inside { kind with triple := true } 0 } := by
  rw [LookAhead.read, hmode]
  exact if_pos (beq_self_eq_true kind.quote)

/-- The span of a literal that opens with the quote at an offset. -/
def spanOf (i : Nat) (kind : Kind) (head : Bytes) (letters : List Char) (body : Bytes) :
    Literal :=
  ⟨head.length,
    (closing? kind body).map fun m => i + kind.delimiter.length + m + kind.delimiter.length,
    Utf8.encodeChars letters ++ kind.delimiter⟩

namespace Quoted

variable {rest head body : Bytes} {letters : List Char}

theorem length_front (hquoted : Quoted isWord front rest kind head letters body) :
    front.length = head.length + (Utf8.encodeChars letters).length := by
  rw [hquoted.front_eq, List.length_append]

theorem quote_toNat (hquoted : Quoted isWord front rest kind head letters body) :
    kind.quote.toNat ≤ 0x7F := by
  obtain ⟨quote, hquote⟩ := exists_quote_of_isQuote hquoted.quote
  rw [hquote]
  cases quote <;> decide

theorem ascii_opening (hquoted : Quoted isWord front rest kind head letters body) :
    ∀ b ∈ Utf8.encodeChars letters ++ kind.delimiter, b.toNat ≤ 0x7F := by
  intro b hb
  rcases List.mem_append.mp hb with hletter | hdelimiter
  · obtain ⟨c, hc, hmem⟩ := List.mem_flatMap.mp hletter
    have hascii := toNat_le_of_isPrefixLetter (hquoted.letter c hc)
    rw [Utf8.encodeChar_of_le hascii, List.mem_singleton] at hmem
    rw [hmem, Utf8.toNat_byte (by omega)]
    exact hascii
  · rw [List.eq_of_mem_replicate hdelimiter]
    exact hquoted.quote_toNat

theorem opens (hquoted : Quoted isWord front rest kind head letters body) :
    Opens (front ++ rest) head.length kind (Utf8.encodeChars letters ++ kind.delimiter) := by
  refine ⟨hquoted.quote, ⟨letters, hquoted.length_le, hquoted.letter, hquoted.raw, rfl⟩, ?_⟩
  rw [hquoted.front_eq, hquoted.rest_eq, List.append_assoc, List.drop_left, ← List.append_assoc]
  exact List.prefix_append _ _

theorem drop_eq_body (hquoted : Quoted isWord front rest kind head letters body) :
    (front ++ rest).drop (front.length + kind.delimiter.length) = body := by
  rw [hquoted.rest_eq, ← List.append_assoc, ← List.length_append, List.drop_left]

theorem not_two_quotes (hquoted : Quoted isWord front rest kind head letters body)
    (hsingle : kind.triple = false) : ¬[kind.quote, kind.quote] <+: body := by
  intro htwo
  have hthree : [kind.quote, kind.quote, kind.quote] <+: rest := by
    rw [hquoted.rest_eq, Kind.delimiter_single hsingle]
    exact List.cons_prefix_cons.mpr ⟨rfl, htwo⟩
  have htriple := hquoted.triple
  rw [hsingle, List.isPrefixOf_iff_prefix.mpr hthree] at htriple
  cases htriple

/-- No access fails where a literal opens. -/
theorem literalAt?_eq (hquoted : Quoted isWord front rest kind head letters body)
    (htext : Utf8.encodeChars text = front ++ rest) :
    literalAt? isWord text front.length kind.quote =
      some (spanOf front.length kind head letters body) := by
  have hnear : slice? (front ++ rest) (front.length - window) front.length =
      some (front.drop (front.length - window)) := by
    rw [slice?_of_le (by omega) (by simp), List.take_left]
  have hahead : slice? (front ++ rest) front.length (front ++ rest).length = some rest := by
    rw [slice?_to_end (by simp), List.drop_left]
  have hstart : minus? front.length (Utf8.encodeChars letters).length = some head.length := by
    rw [minus?, hquoted.length_front, if_pos (Nat.le_add_left _ _), Nat.add_sub_cancel]
  have hwidth : (if kind.triple = true then 3 else 1) = kind.delimiter.length := by
    rw [Kind.delimiter, List.length_replicate]
  have hopening : sliceText? text head.length (front.length + kind.delimiter.length) =
      some (Utf8.encodeChars letters ++ kind.delimiter) := by
    obtain ⟨more, hmore⟩ := kind.delimiter_eq_cons
    rw [hquoted.front_eq, hquoted.rest_eq, ← List.append_assoc, List.append_assoc head] at htext
    rw [← sliceText?_of_ascii (by simp [hmore]) hquoted.ascii_opening htext,
      hquoted.length_front]
    simp [Nat.add_assoc]
  have hclose : findClose? (front ++ rest) kind (front.length + kind.delimiter.length) = _ :=
    findClose?_eq _ _ _
  have hkind : (⟨kind.quote, letters.any fun c => c == 'r' || c == 'R', kind.triple⟩ : Kind) =
      kind := by
    rw [← hquoted.raw]
  rw [hquoted.drop_eq_body] at hclose
  simp only [literalAt?, htext, hnear, hquoted.found, any_raw_encodeChars hquoted.letter, hstart,
    hahead, ← hquoted.triple, hwidth, hkind, hclose, hopening, Option.bind_eq_bind,
    Option.bind_some]
  rfl

/-- Behind the quotes that open it, the look ahead has the literal as its last one, and reads
it to its end. -/
theorem run (hquoted : Quoted isWord front rest kind head letters body)
    (hcode : ReadsCode isWord look rest) (hbefore : look.before = front.reverse)
    (hoffset : look.offset = front.length) :
    let after := kind.delimiter.foldl (LookAhead.step isWord) look
    after.last = some ⟨head.length, none, Utf8.encodeChars letters ++ kind.delimiter⟩ ∧
      Ends isWord after kind body (closing? kind body) := by
  have hfound : prefixOf isWord (look.before.take window).reverse = Utf8.encodeChars letters := by
    rw [hbefore, near_eq, hquoted.found]
  have hstart : look.offset - (Utf8.encodeChars letters).length = head.length := by
    rw [hoffset, hquoted.length_front, Nat.add_sub_cancel]
  have hread : look.read isWord kind.quote =
      { look with
        last := some ⟨head.length, none, Utf8.encodeChars letters ++ [kind.quote]⟩
        mode := .oneQuote ⟨kind.quote, kind.raw, false⟩ } := by
    have hnext : kind.quote ∈ rest.head? := by
      obtain ⟨more, hmore⟩ := kind.delimiter_eq_cons
      rw [hquoted.rest_eq, hmore]
      rfl
    rw [hcode _ hnext, readCode_opens hquoted.quote, hfound, hstart,
      any_raw_encodeChars hquoted.letter, hquoted.raw]
  obtain ⟨hmode, hlast⟩ := step_of_read hread
  cases htriple : kind.triple with
  | false =>
    rw [Kind.delimiter_single htriple]
    rw [← htriple] at hmode
    exact ⟨hlast, ends_opened hmode (ne_of_isQuote hquoted.quote) htriple
      (hquoted.not_two_quotes htriple)⟩
  | true =>
    obtain ⟨hmode', hlast'⟩ := step_of_read (read_second_quote hmode)
    obtain ⟨hmode'', hlast''⟩ := step_of_read (read_third_quote hmode')
    rw [Kind.delimiter_triple htriple]
    refine ⟨hlast''.trans ?_, ends_inside (readsInside_of_mode (hmode''.trans ?_) body)
      (tooFew_zero kind body)⟩
    · simp only [hlast', LookAhead.close, hlast, Option.map_some, List.append_assoc]
      rfl
    · rw [← htriple]

end Quoted

end Literal
end LineShell
