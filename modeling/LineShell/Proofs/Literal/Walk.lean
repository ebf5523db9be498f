import LineShell.Proofs.Literal.Opening
import Mathlib.Tactic

/-!
# A walk over a source by offsets

The last literal of a source is found by a walk that goes from offset to offset: over a
comment to the end of its line, over a literal to its end, and otherwise from byte to byte.
It never asks for a byte or a part of the source that is not there.  The look ahead, which
reads every byte once, finds the same literal.
-/

namespace LineShell
namespace Literal

open Text

variable {isWord : Char → Bool} {text : List Char} {bytes front back : Bytes} {b : UInt8}
variable {i j : Nat} {last : Option Literal} {kind : Kind} {look : LookAhead}

/-! ## Quotes in comments -/

/-- Every quote among bytes stands in a comment that begins among them. -/
def Commented (front bytes : Bytes) : Prop :=
  ∀ before b after, bytes = before ++ b :: after → isQuote b = true →
    ∃ outer comment, before = outer ++ 35 :: comment ∧
      beginsComment (front ++ outer).reverse = true ∧ 10 ∉ comment

theorem commented_nil (front : Bytes) : Commented front [] := by
  intro before b after hbytes
  simp at hbytes

theorem commented_singleton (hb : isQuote b = false) (front : Bytes) : Commented front [b] := by
  intro before c after hbytes hc
  obtain rfl : c = b := by
    rw [← List.mem_singleton, hbytes]
    simp
  rw [hb] at hc
  cases hc

theorem commented_comment {comment : Bytes}
    (hfront : beginsComment front.reverse = true) (hcomment : 10 ∉ comment) :
    Commented front (35 :: comment) := by
  intro before b after hbytes hb
  cases before with
  | nil =>
    obtain ⟨rfl, -⟩ := List.cons.inj hbytes
    cases hb
  | cons c before =>
    obtain ⟨rfl, rfl⟩ := List.cons.inj hbytes
    exact ⟨[], before, rfl, by rwa [List.append_nil],
      fun hmem => hcomment (List.mem_append_left _ hmem)⟩

theorem Commented.append
    (hbytes : Commented front bytes) (hback : Commented (front ++ bytes) back) :
    Commented front (bytes ++ back) := by
  intro before b after heq hb
  rcases List.append_eq_append_iff.mp heq with ⟨more, rfl, hmore⟩ | ⟨more, hmore, hafter⟩
  · obtain ⟨outer, comment, rfl, hbegins, hcomment⟩ := hback more b after hmore hb
    exact ⟨bytes ++ outer, comment, by rw [List.append_assoc],
      by rwa [← List.append_assoc], hcomment⟩
  · cases more with
    | nil =>
      obtain ⟨outer, comment, hnil, hbegins, hcomment⟩ := hback [] b after hafter.symm hb
      cases outer <;> cases hnil
    | cons c more =>
      obtain ⟨rfl, -⟩ := List.cons.inj hafter
      exact hbytes before b more hmore hb

/-! ## The last literal so far -/

/-- What is known of the last literal that opens before an offset: there is none, and every
quote stands in a comment; or it is closed by the first delimiter behind its opening that
closes, and from there on every quote stands in a comment; or no delimiter closes it. -/
inductive Spans (bytes : Bytes) (i : Nat) : Option Literal → Prop where
  | none : Commented [] (bytes.take i) → Spans bytes i none
  | closed {kind : Kind} {start n stop : Nat} {opening : Bytes} :
      Opens bytes start kind opening →
      Closes kind (bytes.drop (start + opening.length)) n →
      (∀ m < n, ¬Closes kind (bytes.drop (start + opening.length)) m) →
      stop = start + opening.length + n + kind.delimiter.length → stop ≤ i →
      Commented (bytes.take stop) ((bytes.take i).drop stop) →
      Spans bytes i (some ⟨start, some stop, opening⟩)
  | opened {kind : Kind} {start : Nat} {opening : Bytes} :
      Opens bytes start kind opening →
      (∀ n, ¬Closes kind (bytes.drop (start + opening.length)) n) →
      Spans bytes i (some ⟨start, none, opening⟩)

theorem take_eq_append (hij : i ≤ j) (bytes : Bytes) :
    bytes.take j = bytes.take i ++ (bytes.take j).drop i := by
  have hsplit := List.take_append_drop i (bytes.take j)
  rw [List.take_take, Nat.min_eq_left hij] at hsplit
  exact hsplit.symm

theorem Spans.extend (hspans : Spans bytes i last) (hi : i ≤ bytes.length) (hij : i ≤ j)
    (hmid : Commented (bytes.take i) ((bytes.take j).drop i)) : Spans bytes j last := by
  cases hspans with
  | none hquotes =>
    refine .none ?_
    rw [take_eq_append hij]
    exact hquotes.append hmid
  | @closed kind start n stop opening hopens hcloses hfirst hstop hle hquotes =>
    refine .closed hopens hcloses hfirst hstop (hle.trans hij) ?_
    have hlength : stop ≤ (bytes.take i).length := by
      rw [List.length_take]
      exact Nat.le_min.mpr ⟨hle, hle.trans hi⟩
    rw [take_eq_append hij, List.drop_append_of_le_length hlength]
    rw [take_eq_append hle] at hmid
    exact hquotes.append hmid
  | opened hopens hnever => exact .opened hopens hnever

/-! ## The walk -/

def mayComment? (bytes : Bytes) (i : Nat) : Option Bool :=
  if i = 0 then some true
  else bytes[i - 1]?.map fun b => b == 32 || b == 9 || b == 10

/-- One turn of the walk, at an offset within the text: the last literal, and where to go on
if the walk is not over. -/
def turn? (isWord : Char → Bool) (text : List Char) (last : Option Literal) (i : Nat) :
    Option (Option Literal × Option Nat) := do
  let bytes := Utf8.encodeChars text
  let b ← bytes[i]?
  if b == 35 then
    if ← mayComment? bytes i then
      let rest ← slice? bytes i bytes.length
      return (last, some ((rest.findIdx? (· == 10)).elim bytes.length (i + ·)))
    else return (last, some (i + 1))
  else if isQuote b then
    let literal ← literalAt? isWord text i b
    return (some literal, literal.stop)
  else return (last, some (i + 1))

/-- The walk from an offset on.  It fails where a turn fails, and where one does not get
any further. -/
def walkFrom? (isWord : Char → Bool) (text : List Char) (last : Option Literal) (i : Nat) :
    Option (Option Literal) :=
  if i < (Utf8.encodeChars text).length then
    match turn? isWord text last i with
    | none => none
    | some (last, none) => some last
    | some (last, some next) => if i < next then walkFrom? isWord text last next else none
  else some last
  termination_by (Utf8.encodeChars text).length - i

def walk? (isWord : Char → Bool) (source : String) : Option (Option Literal) :=
  walkFrom? isWord source.toList none 0

/-! ## Where the walk stands -/

/-- The look ahead behind the bytes before an offset. -/
def lookTo (isWord : Char → Bool) (bytes : Bytes) (i : Nat) : LookAhead :=
  (bytes.take i).foldl (LookAhead.step isWord) LookAhead.initial

/-- Where the walk stands at an offset, the look ahead reads code and has the same last
literal. -/
structure Stays (isWord : Char → Bool) (bytes : Bytes) (i : Nat) (last : Option Literal) :
    Prop where
  le : i ≤ bytes.length
  code : ReadsCode isWord (lookTo isWord bytes i) (bytes.drop i)
  last_eq : (lookTo isWord bytes i).last = last
  spans : Spans bytes i last

theorem lookTo_before (isWord : Char → Bool) (bytes : Bytes) (i : Nat) :
    (lookTo isWord bytes i).before = (bytes.take i).reverse :=
  (before_foldl isWord (bytes.take i) LookAhead.initial).trans (List.append_nil _)

theorem lookTo_offset (isWord : Char → Bool) (hi : i ≤ bytes.length) :
    (lookTo isWord bytes i).offset = i := by
  rw [lookTo, offset_foldl, List.length_take, Nat.min_eq_left hi]
  exact Nat.zero_add i

theorem lookTo_add (isWord : Char → Bool) (bytes : Bytes) (i k : Nat) :
    lookTo isWord bytes (i + k) =
      ((bytes.drop i).take k).foldl (LookAhead.step isWord) (lookTo isWord bytes i) := by
  rw [lookTo, List.take_add, List.foldl_append, lookTo]

theorem lookTo_succ (isWord : Char → Bool) (hb : bytes[i]? = some b) :
    lookTo isWord bytes (i + 1) = (lookTo isWord bytes i).step isWord b := by
  rw [lookTo_add, drop_eq_cons hb]
  rfl

theorem lastIn?_eq (isWord : Char → Bool) (bytes : Bytes) :
    lastIn? isWord bytes = (lookTo isWord bytes bytes.length).last := by
  rw [lookTo, List.take_length, lastIn?]

theorem mayComment?_eq (hi : i ≤ bytes.length) :
    mayComment? bytes i = some (beginsComment (bytes.take i).reverse) := by
  cases i with
  | zero => rfl
  | succ k =>
    have hk : k < bytes.length := hi
    rw [mayComment?, if_neg (Nat.succ_ne_zero k), Nat.add_sub_cancel, List.getElem?_eq_getElem hk,
      List.take_succ_eq_append_getElem hk, List.reverse_append]
    rfl

/-- An ordinary byte is passed. -/
theorem Stays.pass (hstays : Stays isWord bytes i last) (hb : bytes[i]? = some b)
    (hcomment : (b == 35 && beginsComment (bytes.take i).reverse) = false)
    (hquote : isQuote b = false) : Stays isWord bytes (i + 1) last := by
  obtain ⟨hi, hbyte⟩ := List.getElem?_eq_some_iff.mp hb
  have hmay : (b == 35 && (lookTo isWord bytes i).mayComment) = false := by
    rw [mayComment_eq, lookTo_before, hcomment]
  obtain ⟨hmode, hlast⟩ := step_of_read
    ((hstays.code b (by rw [drop_eq_cons hb]; rfl)).trans (readCode_ordinary hmay hquote))
  rw [← lookTo_succ isWord hb] at hmode hlast
  refine ⟨hi, readsCode_of_mode hmode _, hlast.trans hstays.last_eq,
    hstays.spans.extend hstays.le (Nat.le_succ i) ?_⟩
  have hlength : (bytes.take i).length = i := List.length_take_of_le hstays.le
  rw [List.take_succ_eq_append_getElem hi, List.drop_left' hlength, hbyte]
  exact commented_singleton hquote _

theorem foldl_comment {comment : Bytes} (hmode : look.mode = .comment) (hcomment : 10 ∉ comment) :
    let after := comment.foldl (LookAhead.step isWord) look
    after.mode = .comment ∧ after.last = look.last := by
  induction comment generalizing look with
  | nil => exact ⟨hmode, rfl⟩
  | cons b rest ih =>
    obtain ⟨hb, hrest⟩ := List.ne_and_not_mem_of_not_mem_cons hcomment
    have hread : look.read isWord b = look := by
      rw [LookAhead.read, hmode]
      exact if_neg (by simpa using hb.symm)
    obtain ⟨hnext, hlast⟩ := step_of_read hread
    obtain ⟨hafter, hsame⟩ := ih (hnext.trans hmode) hrest
    exact ⟨hafter, hsame.trans hlast⟩

theorem exists_line (bytes : Bytes) :
    ∃ line after, bytes = line ++ after ∧ 10 ∉ line ∧ (∀ b ∈ after.head?, b = 10) ∧
      bytes.findIdx (· == 10) = line.length := by
  induction bytes with
  | nil => exact ⟨[], [], rfl, by simp, by simp, rfl⟩
  | cons b rest ih =>
    by_cases hb : b = 10
    · exact ⟨[], b :: rest, rfl, by simp, by simpa using hb, by simp [List.findIdx_cons, hb]⟩
    · obtain ⟨line, after, rfl, hline, hafter, hlength⟩ := ih
      refine ⟨b :: line, after, rfl, ?_, hafter, ?_⟩
      · exact List.not_mem_cons_of_ne_of_not_mem (Ne.symm hb) hline
      · rw [List.findIdx_cons, beq_eq_false_iff_ne.mpr hb, hlength]
        rfl

/-- A comment is passed up to the end of its line. -/
theorem Stays.comment (hstays : Stays isWord bytes i last) (hb : bytes[i]? = some 35)
    (hbegins : beginsComment (bytes.take i).reverse = true) :
    Stays isWord bytes (i + (bytes.drop i).findIdx (· == 10)) last := by
  obtain ⟨line, after, hmore, hline, hafter, hlength⟩ := exists_line (bytes.drop (i + 1))
  have hrest : bytes.drop i = 35 :: line ++ after := by
    rw [drop_eq_cons hb, hmore]
    rfl
  have hfind : (bytes.drop i).findIdx (· == 10) = (35 :: line).length := by
    rw [drop_eq_cons hb, List.findIdx_cons, hlength]
    rfl
  have hmay : (lookTo isWord bytes i).mayComment = true := by
    rw [mayComment_eq, lookTo_before, hbegins]
  have hread : (lookTo isWord bytes i).read isWord 35 =
      { lookTo isWord bytes i with mode := .comment } := by
    rw [hstays.code 35 (by rw [hrest]; rfl), LookAhead.readCode, hmay]
    rfl
  obtain ⟨hmode, hlast⟩ := step_of_read hread
  obtain ⟨hmode', hlast'⟩ := foldl_comment hmode hline
  have hlook : lookTo isWord bytes (i + (35 :: line).length) =
      line.foldl (LookAhead.step isWord) ((lookTo isWord bytes i).step isWord 35) := by
    rw [lookTo_add, hrest, List.take_left]
    rfl
  have hdrop : bytes.drop (i + (35 :: line).length) = after := by
    rw [← List.drop_drop, hrest, List.drop_left]
  rw [hfind]
  refine ⟨?_, ?_, ?_, hstays.spans.extend hstays.le (Nat.le_add_right i _) ?_⟩
  · have hfits := congrArg List.length hrest
    rw [List.length_drop, List.length_append] at hfits
    have hle := hstays.le
    omega
  · -- The end of the line is passed as it is outside comments.
    intro b hnext
    obtain rfl := hafter b (hdrop ▸ hnext)
    rw [hlook, LookAhead.read, hmode', readCode_ordinary rfl rfl]
    rfl
  · rw [hlook, hlast', hlast, ← hstays.last_eq]
  · rw [List.take_add, hrest, List.take_left,
      List.drop_left' (List.length_take_of_le hstays.le)]
    exact commented_comment hbegins hline

/-! ## Turn by turn -/

/-- After a turn, the walk is over, or stands at a later offset. -/
def Turned (isWord : Char → Bool) (bytes : Bytes) (i : Nat) (last : Option Literal) :
    Option Nat → Prop
  | none => lastIn? isWord bytes = last ∧ Spans bytes bytes.length last
  | some j => i < j ∧ Stays isWord bytes j last

/-- The look ahead stands behind the quotes that open a literal. -/
structure Begun (isWord : Char → Bool) (bytes : Bytes) (i : Nat) (kind : Kind) (start : Nat)
    (opening : Bytes) : Prop where
  le : i ≤ bytes.length
  opens : Opens bytes start kind opening
  place : start + opening.length = i
  last_eq : (lookTo isWord bytes i).last = some ⟨start, none, opening⟩
  ends : Ends isWord (lookTo isWord bytes i) kind (bytes.drop i) (closing? kind (bytes.drop i))

theorem Stays.begun {head body : Bytes} {letters : List Char}
    (hstays : Stays isWord bytes i last)
    (hquoted : Quoted isWord (bytes.take i) (bytes.drop i) kind head letters body) :
    Begun isWord bytes (i + kind.delimiter.length) kind head.length
      (Utf8.encodeChars letters ++ kind.delimiter) := by
  have hlength : (bytes.take i).length = i := List.length_take_of_le hstays.le
  have hafter : kind.delimiter.foldl (LookAhead.step isWord) (lookTo isWord bytes i) =
      lookTo isWord bytes (i + kind.delimiter.length) := by
    rw [lookTo_add, hquoted.rest_eq, List.take_left]
  have hbody : body = bytes.drop (i + kind.delimiter.length) := by
    rw [← List.drop_drop, hquoted.rest_eq, List.drop_left]
  have hfits := congrArg List.length hquoted.rest_eq
  rw [List.length_drop, List.length_append] at hfits
  obtain ⟨hlast, hends⟩ := hquoted.run hstays.code (lookTo_before isWord bytes i)
    ((lookTo_offset isWord hstays.le).trans hlength.symm)
  rw [hafter] at hlast hends
  refine ⟨by have hle := hstays.le; omega, ?_, ?_, hlast, hbody ▸ hends⟩
  · have hopens := hquoted.opens
    rwa [List.take_append_drop] at hopens
  · rw [List.length_append, ← Nat.add_assoc, ← hquoted.length_front, hlength]

namespace Begun

variable {start m : Nat} {opening : Bytes}

theorem never_closes (hbegun : Begun isWord bytes i kind start opening)
    (hnone : closing? kind (bytes.drop i) = none) :
    Turned isWord bytes j (some ⟨start, none, opening⟩) none := by
  refine ⟨?_, .opened hbegun.opens fun n hcloses => ?_⟩
  · have hends := hbegun.ends
    rw [hnone] at hends
    rw [lastIn?_eq, ← Nat.add_sub_cancel' hbegun.le, lookTo_add, ← List.length_drop,
      List.take_length]
    exact Eq.trans hends hbegun.last_eq
  · rw [hbegun.place] at hcloses
    obtain ⟨m, -, hsome⟩ := hcloses.exists_closing? (ne_of_isQuote hbegun.opens.quote)
    rw [hnone] at hsome
    cases hsome

theorem closes (hbegun : Begun isWord bytes i kind start opening)
    (hfound : closing? kind (bytes.drop i) = some m) :
    let stop := i + (m + kind.delimiter.length)
    Stays isWord bytes stop (some ⟨start, some stop, opening⟩) := by
  intro stop
  have hcloses : Closes kind (bytes.drop (start + opening.length)) m := by
    rw [hbegun.place]
    exact closes_of_closing? hfound
  have hfirst : ∀ n < m, ¬Closes kind (bytes.drop (start + opening.length)) n := by
    intro n hn hearlier
    rw [hbegun.place] at hearlier
    obtain ⟨k, hk, hsome⟩ := hearlier.exists_closing? (ne_of_isQuote hbegun.opens.quote)
    rw [hfound] at hsome
    obtain rfl := Option.some.inj hsome
    omega
  have hfits : stop ≤ bytes.length := by
    have hlt := hcloses.lt_length
    have hle := hcloses.delimiter.length_le
    rw [hbegun.place, List.length_drop] at hlt hle
    rw [List.length_drop] at hle
    omega
  have hends := hbegun.ends
  rw [hfound] at hends
  obtain ⟨hcode, hclosed⟩ := hends
  rw [← lookTo_add] at hcode hclosed
  rw [List.drop_drop] at hcode
  refine ⟨hfits, hcode, ?_, .closed hbegun.opens hcloses hfirst ?_ (le_refl _) ?_⟩
  · rw [hclosed, LookAhead.close, hbegun.last_eq, lookTo_offset isWord hbegun.le]
    rfl
  · rw [hbegun.place, Nat.add_assoc]
  · rw [List.drop_eq_nil_of_le (List.length_take_le _ _)]
    exact commented_nil _

theorem turned (hbegun : Begun isWord bytes (i + kind.delimiter.length) kind start opening) :
    let stop := (closing? kind (bytes.drop (i + kind.delimiter.length))).map fun m =>
      i + kind.delimiter.length + m + kind.delimiter.length
    Turned isWord bytes i (some ⟨start, stop, opening⟩) stop := by
  cases hfound : closing? kind (bytes.drop (i + kind.delimiter.length)) with
  | none => exact hbegun.never_closes hfound
  | some m =>
    have hwidth := kind.delimiter_length_pos
    have hstays := hbegun.closes hfound
    rw [← Nat.add_assoc] at hstays
    exact ⟨by simp only; omega, hstays⟩

end Begun

section Turn

variable (isWord text last)

theorem turn?_comment
    (hb : (Utf8.encodeChars text)[i]? = some 35)
    (hmay : mayComment? (Utf8.encodeChars text) i = some true) :
    turn? isWord text last i =
      some (last, some (i + ((Utf8.encodeChars text).drop i).findIdx (· == 10))) := by
  obtain ⟨hi, -⟩ := List.getElem?_eq_some_iff.mp hb
  have hahead := slice?_to_end (Nat.le_of_lt hi)
  have hjump (found : Option Nat) : found.elim (Utf8.encodeChars text).length (i + ·) =
      i + found.getD ((Utf8.encodeChars text).drop i).length := by
    cases found with
    | none =>
      rw [Option.elim_none, Option.getD_none, List.length_drop]
      omega
    | some p => rfl
  rw [turn?, hb]
  simp only [Option.bind_eq_bind, Option.bind_some, hmay, hahead, hjump,
    ← List.findIdx_eq_getD_findIdx?]
  rfl

theorem turn?_sign
    (hb : (Utf8.encodeChars text)[i]? = some 35)
    (hmay : mayComment? (Utf8.encodeChars text) i = some false) :
    turn? isWord text last i = some (last, some (i + 1)) := by
  rw [turn?, hb]
  simp only [Option.bind_eq_bind, Option.bind_some, hmay]
  rfl

theorem turn?_ordinary
    (hb : (Utf8.encodeChars text)[i]? = some b) (hsign : b ≠ 35) (hquote : isQuote b = false) :
    turn? isWord text last i = some (last, some (i + 1)) := by
  rw [turn?, hb]
  simp only [Option.bind_eq_bind, Option.bind_some, beq_eq_false_iff_ne.mpr hsign, hquote]
  rfl

theorem turn?_quote {literal : Literal}
    (hb : (Utf8.encodeChars text)[i]? = some b) (hquote : isQuote b = true)
    (hliteral : literalAt? isWord text i b = some literal) :
    turn? isWord text last i = some (some literal, literal.stop) := by
  have hsign : (b == 35) = false := by
    rw [beq_eq_false_iff_ne]
    rintro rfl
    cases hquote
  rw [turn?, hb]
  simp only [Option.bind_eq_bind, Option.bind_some, hsign, hquote, hliteral]
  rfl

end Turn

/-- No turn of the walk fails, and each one gets further. -/
theorem Stays.exists_turned (hstays : Stays isWord (Utf8.encodeChars text) i last)
    (hi : i < (Utf8.encodeChars text).length) :
    ∃ last' next, turn? isWord text last i = some (last', next) ∧
      Turned isWord (Utf8.encodeChars text) i last' next := by
  obtain ⟨b, hb⟩ : ∃ b, (Utf8.encodeChars text)[i]? = some b := ⟨_, List.getElem?_eq_getElem hi⟩
  have hmay := mayComment?_eq hstays.le
  by_cases hsign : b = 35
  · subst hsign
    cases hbegins : beginsComment ((Utf8.encodeChars text).take i).reverse with
    | true =>
      refine ⟨last, _, turn?_comment isWord text last hb (hmay.trans (congrArg some hbegins)),
        ?_, hstays.comment hb hbegins⟩
      rw [drop_eq_cons hb, List.findIdx_cons]
      exact Nat.lt_add_of_pos_right (Nat.succ_pos _)
    | false =>
      exact ⟨last, _, turn?_sign isWord text last hb (hmay.trans (congrArg some hbegins)),
        Nat.lt_succ_self i, hstays.pass hb (by rw [hbegins, Bool.and_false]) rfl⟩
  cases hquote : isQuote b with
  | false =>
    refine ⟨last, _, turn?_ordinary isWord text last hb hsign hquote, Nat.lt_succ_self i,
      hstays.pass hb ?_ hquote⟩
    rw [beq_eq_false_iff_ne.mpr hsign, Bool.false_and]
  | true =>
    obtain ⟨kind, head, letters, body, rfl, hquoted⟩ :=
      exists_quoted isWord hquote ((Utf8.encodeChars text).take i)
        ((Utf8.encodeChars text).drop (i + 1))
    rw [← drop_eq_cons hb] at hquoted
    have hlength : ((Utf8.encodeChars text).take i).length = i :=
      List.length_take_of_le hstays.le
    have hliteral := hquoted.literalAt?_eq (List.take_append_drop i _).symm
    have hbody := hquoted.drop_eq_body
    rw [List.take_append_drop, hlength] at hbody
    have hturned := (hstays.begun hquoted).turned
    rw [hbody] at hturned
    rw [hlength] at hliteral
    exact ⟨_, _, turn?_quote isWord text last hb hquote hliteral, hturned⟩

theorem Stays.turned {last' : Option Literal} {next : Option Nat}
    (hstays : Stays isWord (Utf8.encodeChars text) i last)
    (hi : i < (Utf8.encodeChars text).length)
    (hturn : turn? isWord text last i = some (last', next)) :
    Turned isWord (Utf8.encodeChars text) i last' next := by
  obtain ⟨other, place, hother, hturned⟩ := hstays.exists_turned hi
  rw [hturn] at hother
  cases hother
  exact hturned

/-- From wherever it stands, the walk ends with the last literal that the look ahead finds. -/
theorem Stays.walkFrom?_eq (hstays : Stays isWord (Utf8.encodeChars text) i last) :
    walkFrom? isWord text last i = some (lastIn? isWord (Utf8.encodeChars text)) ∧
      Spans (Utf8.encodeChars text) (Utf8.encodeChars text).length
        (lastIn? isWord (Utf8.encodeChars text)) := by
  fun_induction walkFrom? isWord text last i with
  | case1 last i hi hnone =>
    obtain ⟨last', next, hturn, -⟩ := hstays.exists_turned hi
    rw [hnone] at hturn
    cases hturn
  | case2 last i hi last' hturn =>
    obtain ⟨hlast, hspans⟩ := hstays.turned hi hturn
    rw [hlast]
    exact ⟨rfl, hspans⟩
  | case3 last i hi last' next hturn hnext ih => exact ih (hstays.turned hi hturn).2
  | case4 last i hi last' next hturn hnext =>
    exact absurd (hstays.turned hi hturn).1 hnext
  | case5 last i hi =>
    obtain rfl : i = (Utf8.encodeChars text).length := le_antisymm hstays.le (Nat.not_lt.mp hi)
    rw [lastIn?_eq, hstays.last_eq]
    exact ⟨rfl, hstays.spans⟩

theorem stays_initial (isWord : Char → Bool) (bytes : Bytes) : Stays isWord bytes 0 none :=
  ⟨Nat.zero_le _, readsCode_of_mode rfl _, rfl, .none (commented_nil [])⟩

/-- The walk over a source never fails, and finds the last literal that the look ahead finds:
none where every quote stands in a comment, and else one that stands where its span says,
with every quote behind its end in a comment. -/
theorem walk_finds_last_literal (source : String) :
    walk? Text.isWord source = some (last? source) ∧
      Spans (Utf8.encode source) (Utf8.encode source).length (last? source) :=
  (stays_initial Text.isWord (Utf8.encodeChars source.toList)).walkFrom?_eq

end Literal
end LineShell
