import LineShell.Literal
import LineShell.Proofs.Language.Zone
import LineShell.Proofs.Text.Utf8

/-!
# The look ahead over plain sources

The look ahead reads bytes and has rules of its own: a literal may open with three
quotes, an r before it makes backslashes ordinary, and a backslash outside literals is
nothing special.  A source is plain if none of these rules comes into play on the way.
Over a plain source the look ahead is inside a literal exactly where the scan is in a
quoted zone.
-/

namespace LineShell

open LineShell.Language Text

namespace Language

/-! ## Zones over bytes -/

def Quote.byte : Quote → UInt8
  | .single => 39
  | .double => 34

namespace Zone

/-- The zone after one more byte.  A byte of a longer character is as good as any
ordinary character. -/
def read (zone : Zone) (b : UInt8) : Zone :=
  zone.step (Char.ofNat b.toNat)

theorem ofNat_eq_iff (b : UInt8) (c : Char) :
    Char.ofNat b.toNat = c ↔ b.toNat = c.toNat := by
  constructor
  · rintro rfl
    exact (Utf8.toNat_ofNat_byte b).symm
  · intro hb
    rw [hb]
    exact Char.ofNat_toNat c

theorem read_outside (fresh : Bool) (b : UInt8) :
    (outside fresh).read b =
      if b = 10 ∨ b = 32 ∨ b = 9 then outside true
      else if b = 35 ∧ fresh then comment
      else if b = 92 then escaped
      else if b = 39 then quoted .single
      else if b = 34 then quoted .double
      else outside false := by
  simp only [read, step, ofNat_eq_iff, ← UInt8.toNat_inj]
  rfl

theorem read_quoted (quote : Quote) (b : UInt8) :
    (quoted quote).read b =
      if b = quote.byte then outside false
      else if b = 92 then hidden quote
      else quoted quote := by
  simp only [read, step, ofNat_eq_iff, ← UInt8.toNat_inj]
  cases quote <;> rfl

/-- What an ordinary character does to a zone. -/
def pass : Zone → Zone
  | outside _ | escaped => outside false
  | comment => comment
  | quoted quote | hidden quote => quoted quote

theorem pass_pass (zone : Zone) : zone.pass.pass = zone.pass := by
  cases zone <;> rfl

theorem step_of_lt (zone : Zone) {c : Char} (hc : 0x7F < c.toNat) :
    zone.step c = zone.pass := by
  have hne : ∀ d : Char, d.toNat ≤ 0x7F → c ≠ d := by
    rintro d hd rfl
    omega
  have hquote : ∀ quote : Quote, c ≠ quote.char := by
    intro quote
    cases quote
    · exact hne _ (by decide)
    · exact hne _ (by decide)
  cases zone <;>
    simp [step, pass, hquote, hne '\n' (by decide), hne ' ' (by decide), hne '\t' (by decide),
      hne '#' (by decide), hne '\\' (by decide), hne '\'' (by decide), hne '"' (by decide)]

theorem foldl_read_high
    {bytes : Bytes} (hne : bytes ≠ []) (hbytes : ∀ b ∈ bytes, 0x80 ≤ b.toNat) (zone : Zone) :
    bytes.foldl read zone = zone.pass := by
  induction bytes generalizing zone with
  | nil => exact absurd rfl hne
  | cons b rest ih =>
    obtain ⟨hb, hrest⟩ := List.forall_mem_cons.mp hbytes
    have hread : zone.read b = zone.pass :=
      step_of_lt zone (by rw [Utf8.toNat_ofNat_byte]; omega)
    rw [List.foldl_cons, hread]
    cases rest with
    | nil => rfl
    | cons next more => rw [ih (by simp) hrest, pass_pass]

/-- The bytes of a character lead to the zone of the character. -/
theorem foldl_read_encodeChar (zone : Zone) (c : Char) :
    (String.utf8EncodeChar c).foldl read zone = zone.step c := by
  by_cases hascii : c.toNat ≤ 0x7F
  · have hbyte : (UInt8.ofNat c.toNat).toNat = c.toNat := Utf8.toNat_byte (by omega)
    rw [Utf8.encodeChar_of_le hascii, List.foldl_cons, List.foldl_nil, read, hbyte,
      Char.ofNat_toNat]
  · rw [foldl_read_high (Utf8.encodeChar_ne_nil c)
      (fun b hb => Utf8.le_of_mem_encodeChar (Nat.not_le.mp hascii) hb),
      step_of_lt zone (Nat.not_le.mp hascii)]

theorem foldl_read_encodeChars (zone : Zone) (text : List Char) :
    (Utf8.encodeChars text).foldl read zone = text.foldl step zone := by
  unfold Utf8.encodeChars
  induction text generalizing zone with
  | nil => rfl
  | cons c rest ih =>
    rw [List.flatMap_cons, List.foldl_append, foldl_read_encodeChar, ih, List.foldl_cons]

end Zone
end Language

namespace Literal

/-! ## Plain sources -/

/-- Whether a comment may begin behind bytes, given with the last one first. -/
def beginsComment : Bytes → Bool
  | [] => true
  | b :: _ => b == 32 || b == 9 || b == 10

def isQuote (b : UInt8) : Bool :=
  b == 39 || b == 34

/-- Whether one of the last two bytes is an r. -/
def endsRaw (before : Bytes) : Bool :=
  (before.take 2).any fun b => b == 114 || b == 82

/-- Whether the look ahead may read a byte otherwise than the scan does: a number sign
behind a blank that belongs to a word, and a quote outside quotes with an r close before
it, behind two quotes like it, or behind a backslash. -/
def misread (zone : Zone) (before : Bytes) (b : UInt8) : Bool :=
  match zone with
  | .outside fresh =>
    (b == 35 && !fresh && beginsComment before) ||
      (isQuote b && (endsRaw before || before.take 2 == [b, b]))
  | .escaped => isQuote b
  | .comment | .quoted _ | .hidden _ => false

def plainFrom : Zone → Bytes → Bytes → Bool
  | _, _, [] => true
  | zone, before, b :: rest =>
    !misread zone before b && plainFrom (zone.read b) (b :: before) rest

/-- Whether no byte of a source may be misread. -/
def isPlain (source : String) : Bool :=
  plainFrom (.outside true) [] (Utf8.encode source)

theorem isQuote_byte (quote : Quote) : isQuote quote.byte = true := by
  cases quote <;> rfl

theorem exists_quote_of_isQuote {b : UInt8} (hb : isQuote b = true) :
    ∃ quote : Quote, b = quote.byte := by
  rw [isQuote, Bool.or_eq_true, beq_iff_eq, beq_iff_eq] at hb
  rcases hb with rfl | rfl
  · exact ⟨.single, rfl⟩
  · exact ⟨.double, rfl⟩

theorem prefixCount_le_two (isWord : Char → Bool) (pieces : List Piece) :
    prefixCount isWord pieces ≤ 2 := by
  unfold prefixCount
  split
  · split_ifs <;> omega
  · split_ifs <;> omega
  · omega

/-- The letters before a quote are among the last two bytes. -/
theorem mem_take_two_of_mem_prefixOf
    {isWord : Char → Bool} {before : Bytes} {b : UInt8}
    (hb : b ∈ prefixOf isWord (before.take window).reverse) : b ∈ before.take 2 := by
  have hcount := prefixCount_le_two isWord
    (Utf8.split (before.take window).reverse).reverse
  rw [prefixOf] at hb
  generalize prefixCount isWord _ = count at hb hcount
  have hlast : b ∈ (before.take window).take count := by
    rw [← List.reverse_reverse (before.take window), List.take_reverse]
    exact List.mem_reverse.mpr hb
  rw [List.take_take] at hlast
  exact (List.take_subset_take_left before (by omega)) hlast

theorem not_raw_of_endsRaw
    {isWord : Char → Bool} {before : Bytes} (hbefore : endsRaw before = false) :
    ((prefixOf isWord (before.take window).reverse).any
      fun letter => letter == 114 || letter == 82) = false := by
  rw [endsRaw, List.any_eq_false] at hbefore
  rw [List.any_eq_false]
  exact fun letter hletter => hbefore letter (mem_take_two_of_mem_prefixOf hletter)

/-! ## The look ahead follows the zone -/

/-- The modes of the look ahead that go with a zone, behind bytes that are given with the
last one first. -/
inductive Stands : Zone → Bytes → Mode → Prop where
  | fresh {before : Bytes} :
      beginsComment before = true → Stands (.outside true) before .code
  | code {before : Bytes} : Stands (.outside false) before .code
  | emptied {quote : Quote} {before : Bytes} :
      Stands (.outside false) (quote.byte :: quote.byte :: before)
        (.twoQuotes ⟨quote.byte, false, false⟩)
  | comment {before : Bytes} : Stands .comment before .comment
  | escaped {before : Bytes} : Stands .escaped (92 :: before) .code
  | opened {quote : Quote} {before : Bytes} :
      Stands (.quoted quote) (quote.byte :: before) (.oneQuote ⟨quote.byte, false, false⟩)
  | inside {quote : Quote} {before : Bytes} :
      Stands (.quoted quote) before (.inside ⟨quote.byte, false, false⟩ 0)
  | hidden {quote : Quote} {before : Bytes} :
      Stands (.hidden quote) before (.hidden ⟨quote.byte, false, false⟩)

/-- The mode goes with the zone, and the last literal is open exactly in a quoted
zone. -/
structure Follows (zone : Zone) (before : Bytes) (look : LookAhead) : Prop where
  stands : Stands zone before look.mode
  isOpen_eq : look.last.any isOpen = zone.isOpen

variable {isWord : Char → Bool} {look : LookAhead} {b : UInt8}

theorem mayComment_eq (look : LookAhead) :
    look.mayComment = beginsComment look.before := by
  unfold LookAhead.mayComment beginsComment
  cases look.before <;> rfl

theorem close_isOpen (look : LookAhead) (stop : Nat) :
    (look.close stop).last.any isOpen = false := by
  unfold LookAhead.close
  cases look.last <;> rfl

theorem readCode_opens (hb : isQuote b = true) :
    let letters := prefixOf isWord (look.before.take window).reverse
    let raw := letters.any fun letter => letter == 114 || letter == 82
    look.readCode isWord b =
      { look with
        last := some ⟨look.offset - letters.length, none, letters ++ [b]⟩
        mode := .oneQuote ⟨b, raw, false⟩ } := by
  have hsign : (b == 35) = false := by
    obtain ⟨quote, rfl⟩ := exists_quote_of_isQuote hb
    cases quote <;> rfl
  intro letters raw
  rw [LookAhead.readCode, hsign, Bool.false_and, if_neg Bool.false_ne_true]
  exact if_pos hb

/-- A quote opens a literal without a letter that makes it raw. -/
theorem readCode_quote
    (isWord : Char → Bool) (quote : Quote) (hraw : endsRaw look.before = false) :
    (look.readCode isWord quote.byte).mode = .oneQuote ⟨quote.byte, false, false⟩ ∧
      (look.readCode isWord quote.byte).last.any isOpen = true := by
  rw [readCode_opens (isQuote_byte quote), not_raw_of_endsRaw hraw]
  exact ⟨rfl, rfl⟩

theorem readCode_ordinary
    (hcomment : (b == 35 && look.mayComment) = false) (hquote : isQuote b = false) :
    look.readCode isWord b = { look with mode := .code } := by
  have hneither : (b == 39 || b == 34) = false := hquote
  simp only [LookAhead.readCode, hcomment, hneither, Bool.false_eq_true, if_false]

theorem follows_readCode
    {fresh : Bool} (hfresh : fresh = true → beginsComment look.before = true)
    (hclosed : look.last.any isOpen = false)
    (hplain : misread (.outside fresh) look.before b = false) :
    Follows ((Zone.outside fresh).read b) (b :: look.before) (look.readCode isWord b) := by
  obtain ⟨hcomment, hquote⟩ := Bool.or_eq_false_iff.mp hplain
  rw [Zone.read_outside]
  by_cases hblank : b = 10 ∨ b = 32 ∨ b = 9
  · have hbegins : beginsComment (b :: look.before) = true := by
      rcases hblank with rfl | rfl | rfl <;> rfl
    have hordinary : isQuote b = false ∧ (b == 35) = false := by
      rcases hblank with rfl | rfl | rfl <;> exact ⟨rfl, rfl⟩
    rw [if_pos hblank, readCode_ordinary (by rw [hordinary.2]; rfl) hordinary.1]
    exact ⟨.fresh hbegins, hclosed⟩
  rw [if_neg hblank]
  by_cases hsign : b = 35
  · subst hsign
    cases fresh with
    | true =>
      have hopens : look.mayComment = true := (mayComment_eq look).trans (hfresh rfl)
      simp only [and_self, if_true, LookAhead.readCode, hopens, beq_self_eq_true, Bool.and_self]
      exact ⟨.comment, hclosed⟩
    | false =>
      have hnone : look.mayComment = false := (mayComment_eq look).trans (by simpa using hcomment)
      rw [readCode_ordinary (by rw [hnone]; rfl) rfl]
      exact ⟨.code, hclosed⟩
  rw [if_neg (fun hboth => hsign hboth.1)]
  have hnumber : (b == 35 && look.mayComment) = false := by
    rw [beq_eq_false_iff_ne.mpr hsign, Bool.false_and]
  by_cases hescape : b = 92
  · subst hescape
    rw [if_pos rfl, readCode_ordinary hnumber rfl]
    exact ⟨.escaped, hclosed⟩
  rw [if_neg hescape]
  by_cases hopens : isQuote b = true
  · have hraw : endsRaw look.before = false := by
      rw [hopens, Bool.true_and] at hquote
      exact (Bool.or_eq_false_iff.mp hquote).1
    obtain ⟨quote, rfl⟩ := exists_quote_of_isQuote hopens
    obtain ⟨hmode, hopen⟩ := readCode_quote isWord quote hraw
    have hzone : (if quote.byte = 39 then Zone.quoted .single
        else if quote.byte = 34 then .quoted .double else .outside false) = .quoted quote := by
      cases quote <;> rfl
    rw [hzone]
    refine ⟨?_, hopen⟩
    rw [hmode]
    exact .opened
  · rw [Bool.not_eq_true] at hopens
    have hneither := Bool.or_eq_false_iff.mp hopens
    rw [if_neg (beq_eq_false_iff_ne.mp hneither.1), if_neg (beq_eq_false_iff_ne.mp hneither.2),
      readCode_ordinary hnumber hopens]
    exact ⟨.code, hclosed⟩

theorem follows_readInside
    {quote : Quote} (hopen : look.last.any isOpen = true) :
    Follows ((Zone.quoted quote).read b) (b :: look.before)
      (look.readInside ⟨quote.byte, false, false⟩ 0 b) := by
  have hescape : quote.byte ≠ 92 := by cases quote <;> decide
  rw [Zone.read_quoted]
  unfold LookAhead.readInside
  by_cases hquote : b = quote.byte
  · subst hquote
    simp only [beq_eq_false_iff_ne.mpr hescape, Bool.false_and, Bool.false_eq_true, if_false,
      beq_self_eq_true, if_true, Bool.not_false, Bool.true_or]
    exact ⟨.code, close_isOpen look _⟩
  · by_cases hhidden : b = 92
    · subst hhidden
      rw [if_neg hquote]
      exact ⟨.hidden, hopen⟩
    · simp only [if_neg hquote, if_neg hhidden, beq_eq_false_iff_ne.mpr hquote,
        beq_eq_false_iff_ne.mpr hhidden, Bool.false_and, Bool.false_eq_true, if_false]
      exact ⟨.inside, hopen⟩

theorem Follows.read
    {zone : Zone} (hfollows : Follows zone look.before look)
    (hplain : misread zone look.before b = false) :
    Follows (zone.read b) (b :: look.before) (look.read isWord b) := by
  obtain ⟨hstands, hopen⟩ := hfollows
  unfold LookAhead.read
  generalize hbefore : look.before = before at hstands hplain ⊢
  generalize hmode : look.mode = mode at hstands ⊢
  cases hstands with
  | fresh hfresh =>
    subst hbefore
    exact follows_readCode (fun _ => hfresh) hopen hplain
  | code =>
    subst hbefore
    exact follows_readCode (fun hfresh => by cases hfresh) hopen hplain
  | @emptied quote front =>
    have hother : b ≠ quote.byte := by
      rintro rfl
      simp [misread, isQuote_byte] at hplain
    simp only [beq_eq_false_iff_ne.mpr hother, Bool.false_eq_true, if_false]
    rw [← hbefore] at hplain ⊢
    exact follows_readCode (fun hfresh => by cases hfresh) hopen hplain
  | comment =>
    have hread : Zone.comment.read b = if b = 10 then .outside true else .comment := by
      simp only [Zone.read, Zone.step, Zone.ofNat_eq_iff, ← UInt8.toNat_inj]
      rfl
    rw [hread]
    by_cases hend : b = 10
    · subst hend
      exact ⟨.fresh rfl, hopen⟩
    · simp only [if_neg hend, beq_eq_false_iff_ne.mpr hend, Bool.false_eq_true, if_false]
      refine ⟨?_, hopen⟩
      rw [hmode]
      exact .comment
  | @escaped front =>
    have hread : Zone.escaped.read b = .outside (b = 10) := by
      simp only [Zone.read, Zone.step, Zone.ofNat_eq_iff, ← UInt8.toNat_inj]
      rfl
    have hnone : look.mayComment = false := by
      rw [mayComment_eq, hbefore]
      rfl
    have hcomment : (b == 35 && look.mayComment) = false := by rw [hnone, Bool.and_false]
    rw [hread, readCode_ordinary hcomment hplain]
    by_cases hend : b = 10
    · subst hend
      exact ⟨.fresh rfl, hopen⟩
    · rw [decide_eq_false hend]
      exact ⟨.code, hopen⟩
  | @opened quote front =>
    by_cases hclose : b = quote.byte
    · subst hclose
      rw [Zone.read_quoted, if_pos rfl]
      simp only [beq_self_eq_true, if_true]
      exact ⟨.emptied, close_isOpen look _⟩
    · simp only [beq_eq_false_iff_ne.mpr hclose, Bool.false_eq_true, if_false]
      rw [← hbefore]
      exact follows_readInside hopen
  | inside =>
    subst hbefore
    exact follows_readInside hopen
  | hidden =>
    exact ⟨.inside, hopen⟩

theorem Follows.step
    {zone : Zone} (hfollows : Follows zone look.before look)
    (hplain : misread zone look.before b = false) :
    Follows (zone.read b) (look.step isWord b).before (look.step isWord b) :=
  ⟨(hfollows.read hplain).stands, (hfollows.read hplain).isOpen_eq⟩

theorem Follows.foldl
    {zone : Zone} (hfollows : Follows zone look.before look) (isWord : Char → Bool)
    {bytes : Bytes} (hplain : plainFrom zone look.before bytes = true) :
    let last := bytes.foldl (LookAhead.step isWord) look
    Follows (bytes.foldl Zone.read zone) last.before last := by
  induction bytes generalizing zone look with
  | nil => exact hfollows
  | cons b rest ih =>
    rw [plainFrom, Bool.and_eq_true, Bool.not_eq_true'] at hplain
    exact ih (hfollows.step hplain.1) hplain.2

/-- Over a plain source, the look ahead ends inside a literal exactly if the scan ends in a
quoted zone. -/
theorem endsInside_eq_of_isPlain
    {source : String} (hplain : isPlain source = true) :
    endsInside source = (Zone.ofChars source.toList).isOpen := by
  have hinitial : Follows (.outside true) LookAhead.initial.before LookAhead.initial :=
    ⟨.fresh rfl, rfl⟩
  have hlast := (hinitial.foldl Text.isWord hplain).isOpen_eq
  rw [Utf8.encode, Zone.foldl_read_encodeChars] at hlast
  exact hlast

end Literal
end LineShell
