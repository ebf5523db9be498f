import LineShell.Proofs.Language.LookAhead

/-!
# Where the look ahead and the scan agree on quotes

Whether the look ahead may misread a source can be asked of its characters.  What it
reads otherwise than the scan does, it reads so at a quote: three equal quotes in a row,
an r close before a quote that opens, and a quote or a blank behind a backslash outside
quotes.  A source without these breaks off in a quoted text for the one exactly if it
does for the other.
-/

namespace LineShell

open LineShell.Language Text

namespace Literal

/-! ## Plain characters -/

theorem misread_of_ordinary
    {b : UInt8} (hsign : b ≠ 35) (hquote : isQuote b = false) (zone : Zone) (before : Bytes) :
    misread zone before b = false := by
  cases zone <;> simp [misread, hsign, hquote]

theorem plainFrom_append (zone : Zone) (before front back : Bytes) :
    plainFrom zone before (front ++ back) =
      (plainFrom zone before front &&
        plainFrom (front.foldl Zone.read zone) (front.reverse ++ before) back) := by
  induction front generalizing zone before with
  | nil => rfl
  | cons b rest ih =>
    rw [List.cons_append, plainFrom, plainFrom, ih, Bool.and_assoc, List.foldl_cons,
      List.reverse_cons, List.append_assoc, List.singleton_append]

/-- Bytes of longer characters are never misread. -/
theorem plainFrom_high
    {bytes : Bytes} (hbytes : ∀ b ∈ bytes, 0x80 ≤ b.toNat) (zone : Zone) (before : Bytes) :
    plainFrom zone before bytes = true := by
  induction bytes generalizing zone before with
  | nil => rfl
  | cons b rest ih =>
    obtain ⟨hb, hrest⟩ := List.forall_mem_cons.mp hbytes
    have hne : ∀ d : UInt8, d.toNat < 0x80 → b ≠ d := by
      rintro d hd rfl
      omega
    have hquote : isQuote b = false := by
      simp [isQuote, hne 39 (by decide), hne 34 (by decide)]
    rw [plainFrom, misread_of_ordinary (hne 35 (by decide)) hquote, ih hrest]
    rfl

theorem isPlain_of_chars
    {source : String}
    (hchars : ∀ front c, front ++ [c] <+: source.toList → c.toNat ≤ 0x7F →
      misread (Zone.ofChars front) (Utf8.encodeChars front).reverse (UInt8.ofNat c.toNat) =
        false) :
    isPlain source = true := by
  have htext : ∀ text, text <+: source.toList →
      plainFrom (.outside true) [] (Utf8.encodeChars text) = true := by
    intro text
    induction text using List.reverseRecOn with
    | nil => exact fun _ => rfl
    | append_singleton front c ih =>
      intro hprefix
      rw [Utf8.encodeChars_append_singleton, plainFrom_append,
        ih ((List.prefix_append front [c]).trans hprefix), Bool.true_and,
        Zone.foldl_read_encodeChars, List.append_nil]
      by_cases hc : c.toNat ≤ 0x7F
      · have hplain := hchars front c hprefix hc
        rw [Utf8.encodeChar_of_le hc, plainFrom, plainFrom, Bool.and_true,
          Bool.not_eq_true']
        exact hplain
      · exact plainFrom_high
          (fun b hb => Utf8.le_of_mem_encodeChar (Nat.not_le.mp hc) hb) _ _
  exact htext source.toList (List.prefix_refl _)

/-! ## Unambiguous sources -/

/-- No three equal quotes stand in a row, the scan is never behind a backslash outside
quotes, and no quote that opens a quoted text has an r among the two characters before
it. -/
structure Unambiguous (source : String) : Prop where
  no_triple : ∀ quote : Quote, ¬List.replicate 3 quote.char <:+: source.toList
  no_escape : ∀ front, front <+: source.toList → (Scan.ofChars front).zone ≠ .escaped
  no_raw : ∀ front (quote : Quote) fresh, front ++ [quote.char] <+: source.toList →
    (Scan.ofChars front).zone = .outside fresh →
      'r' ∉ front.reverse.take 2 ∧ 'R' ∉ front.reverse.take 2

/-- Without a backslash outside quotes, a blank never belongs to a word. -/
theorem step_blank_ne_word
    {zone : Zone} (hzone : zone ≠ .escaped) {c : Char} (hc : c = ' ' ∨ c = '\t' ∨ c = '\n') :
    zone.step c ≠ .outside false := by
  cases zone with
  | outside fresh => rcases hc with rfl | rfl | rfl <;> simp [Zone.step]
  | comment => rcases hc with rfl | rfl | rfl <;> simp [Zone.step]
  | escaped => exact absurd rfl hzone
  | quoted quote => cases quote <;> rcases hc with rfl | rfl | rfl <;> simp [Zone.step]
  | hidden quote => simp [Zone.step]

/-- The last byte of a word is no blank. -/
theorem beginsComment_of_word
    {front : List Char} (hzone : Zone.ofChars front = .outside false)
    (hescape : ∀ text, text <+: front → Zone.ofChars text ≠ .escaped) :
    beginsComment (Utf8.encodeChars front).reverse = false := by
  rw [← Bool.not_eq_true]
  intro hbegins
  cases hbytes : (Utf8.encodeChars front).reverse with
  | nil =>
    rcases List.eq_nil_or_concat front with rfl | ⟨text, c, rfl⟩
    · cases hzone
    · rw [List.concat_eq_append, Utf8.encodeChars_append_singleton] at hbytes
      simp at hbytes
  | cons b rest =>
    have hblank : b = 32 ∨ b = 9 ∨ b = 10 := by
      simpa [hbytes, beginsComment, or_assoc] using hbegins
    have hascii : b.toNat ≤ 0x7F := by rcases hblank with rfl | rfl | rfl <;> decide
    obtain ⟨text, rfl, -⟩ := Utf8.exists_of_reverse_encodeChars_eq_cons hbytes hascii
    have hstep : Zone.ofChars (text ++ [Char.ofNat b.toNat]) =
        (Zone.ofChars text).step (Char.ofNat b.toNat) := by
      rw [Zone.ofChars, List.foldl_append]
      rfl
    rw [hstep] at hzone
    exact step_blank_ne_word (hescape text (List.prefix_append _ _))
      (by rcases hblank with rfl | rfl | rfl <;> decide) hzone

theorem endsRaw_of_chars
    {front : List Char} (hsmall : 'r' ∉ front.reverse.take 2)
    (hlarge : 'R' ∉ front.reverse.take 2) :
    endsRaw (Utf8.encodeChars front).reverse = false := by
  rw [endsRaw, List.any_eq_false]
  intro b hb hletter
  have hr : b = 114 ∨ b = 82 := by simpa using hletter
  rcases hr with rfl | rfl
  · exact hsmall (Utf8.mem_take_reverse_of_mem_encodeChars (by decide) hb)
  · exact hlarge (Utf8.mem_take_reverse_of_mem_encodeChars (by decide) hb)

theorem quote_ascii (quote : Quote) : quote.byte.toNat ≤ 0x7F := by
  cases quote <;> decide

theorem ofNat_quote_byte (quote : Quote) : Char.ofNat quote.byte.toNat = quote.char := by
  cases quote <;> rfl

/-- Two equal quotes before a third one make three in a row. -/
theorem replicate_infix_of_take
    {front : List Char} {quote : Quote}
    (htwo : (Utf8.encodeChars front).reverse.take 2 = [quote.byte, quote.byte]) :
    List.replicate 3 quote.char <:+: front ++ [quote.char] := by
  obtain ⟨rest, hrest⟩ : ∃ rest,
      (Utf8.encodeChars front).reverse = quote.byte :: quote.byte :: rest :=
    ⟨_, by rw [← List.take_append_drop 2 (Utf8.encodeChars front).reverse, htwo]; rfl⟩
  obtain ⟨first, rfl, hfirst⟩ :=
    Utf8.exists_of_reverse_encodeChars_eq_cons hrest (quote_ascii quote)
  obtain ⟨second, rfl, -⟩ :=
    Utf8.exists_of_reverse_encodeChars_eq_cons hfirst (quote_ascii quote)
  rw [ofNat_quote_byte]
  exact ⟨second, [], by simp [List.replicate]⟩

theorem isPlain_of_unambiguous {source : String} (hgood : Unambiguous source) :
    isPlain source = true := by
  apply isPlain_of_chars
  intro front c hprefix hascii
  have hfront : front <+: source.toList := (List.prefix_append front [c]).trans hprefix
  have hescape : ∀ text, text <+: front → Zone.ofChars text ≠ .escaped := by
    intro text htext
    rw [← Scan.zone_ofChars]
    exact hgood.no_escape text (htext.trans hfront)
  cases hzone : Zone.ofChars front with
  | comment => rfl
  | quoted quote => rfl
  | hidden quote => rfl
  | escaped => exact absurd hzone (hescape front (List.prefix_refl _))
  | outside fresh =>
    rw [misread, Bool.or_eq_false_iff]
    constructor
    · cases fresh with
      | true => simp
      | false => rw [beginsComment_of_word hzone hescape, Bool.and_false]
    · cases hquote : isQuote (UInt8.ofNat c.toNat) with
      | false => rfl
      | true =>
        obtain ⟨quote, hbyte⟩ := exists_quote_of_isQuote hquote
        obtain rfl : c = quote.char := by
          rw [← ofNat_quote_byte, ← hbyte, Utf8.toNat_byte (by omega), Char.ofNat_toNat]
        rw [← Scan.zone_ofChars] at hzone
        obtain ⟨hsmall, hlarge⟩ := hgood.no_raw front quote fresh hprefix hzone
        rw [hbyte, endsRaw_of_chars hsmall hlarge, Bool.true_and, Bool.false_or,
          beq_eq_false_iff_ne]
        intro htwo
        exact hgood.no_triple quote
          ((replicate_infix_of_take htwo).trans hprefix.isInfix)

end Literal

namespace Language

theorem toCompileError_eq_unterminated_iff (e : ParseError) :
    e.toCompileError = .incomplete "unterminated string" ↔ e = .unfinished .openQuote := by
  cases e with
  | unfinished cause => cases cause <;> simp [ParseError.toCompileError, Unfinished.message]
  | malformed cause line column => simp [ParseError.toCompileError]

/-- On an unambiguous source the look ahead and the parser agree on quotes: in either mode
the source is incomplete for an unterminated string exactly if it ends inside a literal. -/
theorem unterminated_iff_endsInside
    {source : String} (hgood : Literal.Unambiguous source) (mode : Mode) :
    (parse mode source).mapError ParseError.toCompileError =
        .error (.incomplete "unterminated string") ↔
      Literal.endsInside source = true := by
  rw [Literal.endsInside_eq_of_isPlain (Literal.isPlain_of_unambiguous hgood),
    ← parse_eq_openQuote_iff mode source]
  cases parse mode source with
  | ok program => simp [Except.mapError]
  | error e => simpa [Except.mapError] using toCompileError_eq_unterminated_iff e

/-- A quote that is hidden in a quoted text, quotes and a backslash in a comment, and a
number sign inside a word are all read alike. -/
theorem unterminated_behind_comment :
    let source := "echo é'\\'' # \\ r'\n set x $y#\"# 'z\n"
    Literal.Unambiguous source ∧ Literal.endsInside source = true ∧
      (parse .single source).mapError ParseError.toCompileError =
        .error (.incomplete "unterminated string") := by
  intro source
  have hgood : Literal.Unambiguous source := by
    constructor
    · intro quote
      cases quote <;> decide +kernel
    · simp only [← List.mem_inits]
      decide +kernel
    · have hplaces : ∀ place ∈ List.range source.toList.length,
          ∀ quote ∈ [Quote.single, .double],
          source.toList[place]? = some quote.char → ∀ fresh ∈ [false, true],
            (Scan.ofChars (source.toList.take place)).zone = .outside fresh →
              'r' ∉ (source.toList.take place).reverse.take 2 ∧
                'R' ∉ (source.toList.take place).reverse.take 2 := by
        decide +kernel
      rintro front quote fresh ⟨rest, hsource⟩ hzone
      have htake : source.toList.take front.length = front := by
        rw [← hsource]
        simp
      have hplace : source.toList[front.length]? = some quote.char := by
        rw [← hsource]
        simp
      rw [← htake] at hzone ⊢
      exact hplaces front.length
        (List.mem_range.mpr (List.getElem?_eq_some_iff.mp hplace).1) quote
        (by cases quote <;> simp) hplace fresh (by cases fresh <;> simp) hzone
  have hinside : Literal.endsInside source = true := by decide +kernel
  exact ⟨hgood, hinside, (unterminated_iff_endsInside hgood .single).mpr hinside⟩

end Language
end LineShell
