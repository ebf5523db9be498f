import LineShell.Proofs.Language.LookAhead
import LineShell.Proofs.Literal.Prefix
import Mathlib.Tactic

/-!
# Where a literal closes

A literal closes at the first delimiter that no backslash escapes; in a literal with an r,
none does.  A search that goes from offset to offset, two at a time where a backslash hides
a byte, finds this delimiter and asks for no byte that is not there.  The look ahead, which
counts the closing quotes as it reads them, closes the literal at the same place.
-/

namespace LineShell
namespace Literal

open Text

variable {kind : Kind} {bytes rest : Bytes} {b : UInt8} {n m : Nat}

/-- The quotes that open a literal and close it. -/
def Kind.delimiter (kind : Kind) : Bytes :=
  List.replicate (if kind.triple then 3 else 1) kind.quote

namespace Kind

theorem delimiter_eq_cons (kind : Kind) :
    ∃ more, kind.delimiter = kind.quote :: more := by
  cases htriple : kind.triple with
  | false => exact ⟨[], by simp [delimiter, htriple]⟩
  | true => exact ⟨[kind.quote, kind.quote], by simp [delimiter, htriple, List.replicate_succ]⟩

theorem delimiter_length_pos (kind : Kind) : 0 < kind.delimiter.length := by
  rw [delimiter, List.length_replicate]
  split <;> decide

theorem delimiter_single (htriple : kind.triple = false) : kind.delimiter = [kind.quote] := by
  simp [delimiter, htriple]

theorem delimiter_triple (htriple : kind.triple = true) :
    kind.delimiter = [kind.quote, kind.quote, kind.quote] := by
  simp [delimiter, htriple, List.replicate_succ]

theorem not_delimiter_prefix (hb : b ≠ kind.quote) : ¬kind.delimiter <+: b :: rest := by
  obtain ⟨more, hmore⟩ := kind.delimiter_eq_cons
  rw [hmore, List.cons_prefix_cons]
  exact fun hboth => hb hboth.1.symm

end Kind

/-! ## Delimiters that close -/

/-- Whether bytes end with a backslash that is not itself behind such a one. -/
def endsEscaping (bytes : Bytes) : Bool :=
  (bytes.reverse.takeWhile fun b => b == 92).length % 2 == 1

theorem endsEscaping_cons {b : UInt8} (hb : b ≠ 92) (bytes : Bytes) :
    endsEscaping (b :: bytes) = endsEscaping bytes := by
  have htake : List.takeWhile (fun b => b == 92) [b] = [] := by simp [hb]
  rw [endsEscaping, endsEscaping, List.reverse_cons, List.takeWhile_append, htake]
  split
  · rename_i hall
    rw [List.append_nil, hall]
  · rfl

theorem endsEscaping_escape (b : UInt8) (bytes : Bytes) :
    endsEscaping (92 :: b :: bytes) = endsEscaping bytes := by
  rw [endsEscaping, endsEscaping, List.reverse_cons, List.reverse_cons, List.append_assoc,
    List.takeWhile_append]
  split
  · rename_i hall
    by_cases hb : b = 92
    · subst hb
      simp [hall]
    · simp [hb, hall]
  · rfl

/-- The delimiter stands at an offset behind the opening one and closes the literal there:
it is not escaped. -/
structure Closes (kind : Kind) (bytes : Bytes) (n : Nat) : Prop where
  delimiter : kind.delimiter <+: bytes.drop n
  free : kind.raw = true ∨ endsEscaping (bytes.take n) = false

theorem closes_zero_iff : Closes kind bytes 0 ↔ kind.delimiter <+: bytes :=
  ⟨fun hcloses => hcloses.delimiter, fun hdelimiter => ⟨hdelimiter, .inr rfl⟩⟩

theorem Closes.lt_length (hcloses : Closes kind bytes n) : n < bytes.length := by
  by_contra hlength
  obtain ⟨more, hmore⟩ := kind.delimiter_eq_cons
  have hdelimiter := hcloses.delimiter
  rw [List.drop_eq_nil_of_le (Nat.not_lt.mp hlength), List.prefix_nil, hmore] at hdelimiter
  cases hdelimiter

theorem closes_succ_iff (hb : b ≠ 92 ∨ kind.raw = true) :
    Closes kind (b :: rest) (n + 1) ↔ Closes kind rest n := by
  have hfree : (kind.raw = true ∨ endsEscaping (b :: rest.take n) = false) ↔
      (kind.raw = true ∨ endsEscaping (rest.take n) = false) := by
    rcases hb with hb | hraw
    · rw [endsEscaping_cons hb]
    · simp [hraw]
  exact ⟨fun hcloses => ⟨hcloses.delimiter, hfree.mp hcloses.free⟩,
    fun hcloses => ⟨hcloses.delimiter, hfree.mpr hcloses.free⟩⟩

theorem closes_escape_iff :
    Closes kind (92 :: b :: rest) (n + 2) ↔ Closes kind rest n := by
  have hescape := endsEscaping_escape b (rest.take n)
  constructor
  · intro hcloses
    refine ⟨hcloses.delimiter, ?_⟩
    rw [← hescape]
    exact hcloses.free
  · intro hcloses
    refine ⟨hcloses.delimiter, ?_⟩
    rw [List.take_succ_cons, List.take_succ_cons, hescape]
    exact hcloses.free

/-- A backslash closes nothing, nor does what it escapes. -/
theorem not_closes_escape
    (hquote : kind.quote ≠ 92) (hraw : kind.raw = false) (hn : n < 2) :
    ¬Closes kind (92 :: rest) n := by
  intro hcloses
  match n, hn with
  | 0, _ => exact Kind.not_delimiter_prefix hquote.symm hcloses.delimiter
  | 1, _ =>
    rcases hcloses.free with hfree | hfree
    · rw [hraw] at hfree
      cases hfree
    · exact absurd hfree (by simp [endsEscaping])

/-! ## The first delimiter that closes -/

/-- The offset of the first delimiter that closes a literal. -/
def closing? (kind : Kind) : Bytes → Option Nat
  | [] => none
  | b :: rest =>
    if b == 92 && !kind.raw then
      match rest with
      | [] => none
      | _ :: more => (closing? kind more).map (· + 2)
    else if kind.delimiter.isPrefixOf (b :: rest) then some 0
    else (closing? kind rest).map (· + 1)

theorem closing?_cons
    (hescape : ¬(b == 92 && !kind.raw) = true)
    (hdelimiter : ¬kind.delimiter.isPrefixOf (b :: rest) = true) :
    closing? kind (b :: rest) = (closing? kind rest).map (· + 1) := by
  rw [closing?.eq_def]
  exact (if_neg hescape).trans (if_neg hdelimiter)

theorem closing?_of_delimiter
    (hescape : ¬(b == 92 && !kind.raw) = true)
    (hdelimiter : kind.delimiter.isPrefixOf (b :: rest) = true) :
    closing? kind (b :: rest) = some 0 := by
  rw [closing?.eq_def]
  exact (if_neg hescape).trans (if_pos hdelimiter)

theorem closing?_escape (hescape : (b == 92 && !kind.raw) = true) (rest : Bytes) :
    closing? kind (b :: rest) = (closing? kind (rest.drop 1)).map (· + 2) := by
  rw [closing?.eq_def]
  refine (if_pos hescape).trans ?_
  cases rest with
  | nil => rfl
  | cons c more => rfl

theorem closes_of_closing? (hfound : closing? kind bytes = some m) : Closes kind bytes m := by
  fun_induction closing? kind bytes generalizing m with
  | case1 => cases hfound
  | case2 => cases hfound
  | case3 b hescape c more ih =>
    obtain ⟨rfl, -⟩ : b = 92 ∧ kind.raw = false := by simpa using hescape
    obtain ⟨k, hk, rfl⟩ := Option.map_eq_some_iff.mp hfound
    exact closes_escape_iff.mpr (ih hk)
  | case4 b rest hescape hdelimiter =>
    obtain rfl := Option.some.inj hfound
    exact closes_zero_iff.mpr (List.isPrefixOf_iff_prefix.mp hdelimiter)
  | case5 b rest hescape hdelimiter ih =>
    obtain ⟨k, hk, rfl⟩ := Option.map_eq_some_iff.mp hfound
    exact (closes_succ_iff (by simpa [or_iff_not_imp_left] using hescape)).mpr (ih hk)

theorem Closes.exists_closing?
    (hquote : kind.quote ≠ 92) (hcloses : Closes kind bytes n) :
    ∃ m ≤ n, closing? kind bytes = some m := by
  fun_induction closing? kind bytes generalizing n with
  | case1 => exact absurd hcloses.lt_length (Nat.not_lt_zero n)
  | case2 b hescape =>
    obtain ⟨rfl, hraw⟩ : b = 92 ∧ kind.raw = false := by simpa using hescape
    have hn : n < 1 := hcloses.lt_length
    exact absurd hcloses (not_closes_escape hquote hraw (by omega))
  | case3 b hescape c more ih =>
    obtain ⟨rfl, hraw⟩ : b = 92 ∧ kind.raw = false := by simpa using hescape
    match n with
    | 0 | 1 => exact absurd hcloses (not_closes_escape hquote hraw (by omega))
    | k + 2 =>
      obtain ⟨m, hm, hfound⟩ := ih (closes_escape_iff.mp hcloses)
      exact ⟨m + 2, by omega, by rw [hfound]; rfl⟩
  | case4 b rest hescape hdelimiter => exact ⟨0, Nat.zero_le n, rfl⟩
  | case5 b rest hescape hdelimiter ih =>
    cases n with
    | zero =>
      exact absurd (List.isPrefixOf_iff_prefix.mpr (closes_zero_iff.mp hcloses)) hdelimiter
    | succ k =>
      have hb : b ≠ 92 ∨ kind.raw = true := by simpa [or_iff_not_imp_left] using hescape
      obtain ⟨m, hm, hfound⟩ := ih ((closes_succ_iff hb).mp hcloses)
      exact ⟨m + 1, by omega, by rw [hfound]; rfl⟩

/-! ## From offset to offset -/

/-- A part of a byte string; there is none unless both ends lie in it, in this order. -/
def slice? (bytes : Bytes) (start stop : Nat) : Option Bytes :=
  if start ≤ stop ∧ stop ≤ bytes.length then some ((bytes.take stop).drop start) else none

/-- The offset behind the delimiter that closes a literal, looked for from an offset on.  It
fails where it asks for bytes that are not there. -/
def findClose? (bytes : Bytes) (kind : Kind) (i : Nat) : Option (Option Nat) :=
  if i < bytes.length then
    match bytes[i]? with
    | none => none
    | some b =>
      if b == 92 && !kind.raw then findClose? bytes kind (i + 2)
      else if b == kind.quote then
        if kind.triple then
          match slice? bytes i bytes.length with
          | none => none
          | some ahead =>
            if [kind.quote, kind.quote, kind.quote].isPrefixOf ahead then some (some (i + 3))
            else findClose? bytes kind (i + 1)
        else some (some (i + 1))
      else findClose? bytes kind (i + 1)
  else some none
  termination_by bytes.length - i

theorem slice?_of_le {start stop : Nat} (hstart : start ≤ stop) (hstop : stop ≤ bytes.length) :
    slice? bytes start stop = some ((bytes.take stop).drop start) :=
  if_pos ⟨hstart, hstop⟩

theorem slice?_to_end {i : Nat} (hi : i ≤ bytes.length) :
    slice? bytes i bytes.length = some (bytes.drop i) := by
  rw [slice?_of_le hi (le_refl _), List.take_length]

theorem drop_eq_cons {i : Nat} (hb : bytes[i]? = some b) :
    bytes.drop i = b :: bytes.drop (i + 1) := by
  obtain ⟨hi, rfl⟩ := List.getElem?_eq_some_iff.mp hb
  exact List.drop_eq_getElem_cons hi

/-- No byte is asked for that is not there, and the first delimiter that closes is found. -/
theorem findClose?_eq (bytes : Bytes) (kind : Kind) (i : Nat) :
    findClose? bytes kind i =
      some ((closing? kind (bytes.drop i)).map fun m => i + m + kind.delimiter.length) := by
  -- How an offset is counted from the next place on.
  have hshift (place k : Nat) (found : Option Nat) :
      (found.map (· + k)).map (fun m => place + m + kind.delimiter.length) =
        found.map fun m => place + k + m + kind.delimiter.length := by
    cases found with
    | none => rfl
    | some m =>
      simp only [Option.map_some]
      exact congrArg some (by omega)
  fun_induction findClose? bytes kind i with
  | case1 i hi hnone => exact absurd (List.getElem?_eq_none_iff.mp hnone) (Nat.not_le.mpr hi)
  | case2 i hi b hb hescape ih =>
    rw [ih, drop_eq_cons hb, closing?_escape hescape, List.drop_drop, hshift]
  | case3 i hi b hb hescape hquote htriple hnone =>
    rw [slice?_to_end (Nat.le_of_lt hi)] at hnone
    cases hnone
  | case4 i hi b hb hescape hquote htriple ahead hahead hprefix =>
    rw [slice?_to_end (Nat.le_of_lt hi)] at hahead
    obtain rfl := Option.some.inj hahead
    rw [← Kind.delimiter_triple htriple, drop_eq_cons hb] at hprefix
    rw [drop_eq_cons hb, closing?_of_delimiter hescape hprefix, Kind.delimiter_triple htriple]
    rfl
  | case5 i hi b hb hescape hquote htriple ahead hahead hprefix ih =>
    rw [slice?_to_end (Nat.le_of_lt hi)] at hahead
    obtain rfl := Option.some.inj hahead
    rw [← Kind.delimiter_triple htriple, drop_eq_cons hb] at hprefix
    rw [ih, drop_eq_cons hb, closing?_cons hescape hprefix, hshift]
  | case6 i hi b hb hescape hquote htriple =>
    rw [Bool.not_eq_true] at htriple
    have hsingle := Kind.delimiter_single htriple
    have hprefix : kind.delimiter.isPrefixOf (b :: bytes.drop (i + 1)) = true := by
      rw [hsingle, beq_iff_eq.mp hquote]
      simp
    rw [drop_eq_cons hb, closing?_of_delimiter hescape hprefix, hsingle]
    rfl
  | case7 i hi b hb hescape hquote ih =>
    have hdelimiter : ¬kind.delimiter <+: b :: bytes.drop (i + 1) :=
      Kind.not_delimiter_prefix (by simpa using hquote)
    rw [ih, drop_eq_cons hb, closing?_cons hescape (by simpa using hdelimiter), hshift]
  | case8 i hi =>
    rw [List.drop_eq_nil_of_le (Nat.not_lt.mp hi)]
    rfl

/-! ## The look ahead in a literal -/

section LookAhead

variable (isWord : Char → Bool) (look : LookAhead)

/-- If a byte follows, the look ahead reads it as one outside literals. -/
def ReadsCode (bytes : Bytes) : Prop :=
  ∀ b ∈ bytes.head?, look.read isWord b = look.readCode isWord b

/-- If a byte follows, the look ahead reads it inside a literal, behind a number of quotes. -/
def ReadsInside (kind : Kind) (quotes : Nat) (bytes : Bytes) : Prop :=
  ∀ b ∈ bytes.head?, look.read isWord b = look.readInside kind quotes b

/-- Behind bytes that it reads inside a literal, the look ahead has closed the literal where
a closing delimiter was found, and reads code from there on; where there was none, it has
left the last literal as it was. -/
def Ends (kind : Kind) (bytes : Bytes) : Option Nat → Prop
  | none => (bytes.foldl (LookAhead.step isWord) look).last = look.last
  | some m =>
    let stop := m + kind.delimiter.length
    let after := (bytes.take stop).foldl (LookAhead.step isWord) look
    ReadsCode isWord after (bytes.drop stop) ∧ after.last = (look.close (look.offset + stop)).last

/-- The quotes just read, if any, are too few to close a literal with those that follow. -/
def TooFew (kind : Kind) (quotes : Nat) (bytes : Bytes) : Prop :=
  0 < quotes →
    kind.triple = true ∧ quotes < 3 ∧ ¬List.replicate (3 - quotes) kind.quote <+: bytes

variable {isWord look}

theorem step_of_read {next : LookAhead} (hread : look.read isWord b = next) :
    (look.step isWord b).mode = next.mode ∧ (look.step isWord b).last = next.last :=
  ⟨show (look.read isWord b).mode = next.mode by rw [hread],
    show (look.read isWord b).last = next.last by rw [hread]⟩

theorem readsCode_of_mode (hmode : look.mode = .code) (bytes : Bytes) :
    ReadsCode isWord look bytes := by
  intro b _
  rw [LookAhead.read, hmode]

theorem readsInside_of_mode {quotes : Nat} (hmode : look.mode = .inside kind quotes)
    (bytes : Bytes) : ReadsInside isWord look kind quotes bytes := by
  intro b _
  rw [LookAhead.read, hmode]

theorem Ends.step {found : Option Nat}
    (hlast : (look.step isWord b).last = look.last)
    (hends : Ends isWord (look.step isWord b) kind rest found) :
    Ends isWord look kind (b :: rest) (found.map (· + 1)) := by
  cases found with
  | none => exact Eq.trans hends hlast
  | some m =>
    obtain ⟨hcode, hclosed⟩ := hends
    have hstop : m + 1 + kind.delimiter.length = m + kind.delimiter.length + 1 := by omega
    have hoffset : (look.step isWord b).offset + (m + kind.delimiter.length) =
        look.offset + (m + kind.delimiter.length + 1) := by
      simp only [LookAhead.step]
      omega
    simp only [Option.map_some, Ends, hstop, List.take_succ_cons, List.drop_succ_cons,
      List.foldl_cons]
    refine ⟨hcode, hclosed.trans ?_⟩
    rw [hoffset, LookAhead.close, LookAhead.close, hlast]

theorem tooFew_zero (kind : Kind) (bytes : Bytes) : TooFew kind 0 bytes :=
  fun hpositive => absurd hpositive (Nat.lt_irrefl 0)

theorem readInside_hides (hescape : (b == 92 && !kind.raw) = true) (quotes : Nat) :
    look.readInside kind quotes b = { look with mode := .hidden kind } := by
  rw [LookAhead.readInside, if_pos hescape]

theorem readInside_closes {quotes : Nat} (hescape : ¬(b == 92 && !kind.raw) = true)
    (hb : b = kind.quote) (hlast : kind.triple = false ∨ quotes = 2) :
    look.readInside kind quotes b = { look.close (look.offset + 1) with mode := .code } := by
  have hcloses : (!kind.triple || quotes == 2) = true := by
    rcases hlast with hsingle | htwo
    · rw [hsingle]
      rfl
    · rw [htwo, beq_self_eq_true, Bool.or_true]
  rw [LookAhead.readInside, if_neg hescape, if_pos (beq_iff_eq.mpr hb), if_pos hcloses]

theorem readInside_counts {quotes : Nat} (hescape : ¬(b == 92 && !kind.raw) = true)
    (hb : b = kind.quote) (htriple : kind.triple = true) (hquotes : quotes ≠ 2) :
    look.readInside kind quotes b = { look with mode := .inside kind (quotes + 1) } := by
  rw [LookAhead.readInside, if_neg hescape, if_pos (beq_iff_eq.mpr hb),
    if_neg (by simp [htriple, hquotes])]

theorem readInside_passes (hescape : ¬(b == 92 && !kind.raw) = true) (hb : b ≠ kind.quote)
    (quotes : Nat) :
    look.readInside kind quotes b = { look with mode := .inside kind 0 } := by
  rw [LookAhead.readInside, if_neg hescape, if_neg (by simpa using hb)]

/-- A quote that begins no closing delimiter is one more. -/
theorem TooFew.of_not_delimiter {quotes : Nat} (hfew : TooFew kind quotes (kind.quote :: rest))
    (hdelimiter : ¬kind.delimiter <+: kind.quote :: rest) :
    kind.triple = true ∧ quotes ≠ 2 ∧ TooFew kind (quotes + 1) rest := by
  have htriple : kind.triple = true := by
    by_contra hsingle
    rw [Bool.not_eq_true] at hsingle
    exact hdelimiter (by simp [Kind.delimiter_single hsingle])
  obtain ⟨hquotes, hmissing⟩ : quotes < 3 ∧
      ¬List.replicate (3 - quotes) kind.quote <+: kind.quote :: rest := by
    rcases Nat.eq_zero_or_pos quotes with rfl | hpositive
    · rw [Kind.delimiter, htriple] at hdelimiter
      exact ⟨by omega, hdelimiter⟩
    · exact (hfew hpositive).2
  obtain ⟨k, hk⟩ : ∃ k, 3 - quotes = k + 1 := ⟨2 - quotes, by omega⟩
  rw [hk, List.replicate_succ, List.cons_prefix_cons] at hmissing
  have hrest : ¬List.replicate k kind.quote <+: rest := fun hprefix => hmissing ⟨rfl, hprefix⟩
  have hne : quotes ≠ 2 := by
    rintro rfl
    obtain rfl : k = 0 := by omega
    exact hrest List.nil_prefix
  refine ⟨htriple, hne, fun _ => ⟨htriple, by omega, ?_⟩⟩
  rwa [show 3 - (quotes + 1) = k by omega]

/-- The quotes of a closing delimiter are read one by one. -/
theorem ends_delimiter {quotes : Nat}
    (hinside : ReadsInside isWord look kind quotes (kind.quote :: rest))
    (hfew : TooFew kind quotes (kind.quote :: rest))
    (hescape : ¬(kind.quote == 92 && !kind.raw) = true)
    (hdelimiter : kind.delimiter <+: kind.quote :: rest) :
    Ends isWord look kind (kind.quote :: rest) (some 0) := by
  cases htriple : kind.triple with
  | false =>
    obtain ⟨hmode, hlast⟩ :=
      step_of_read ((hinside _ rfl).trans (readInside_closes hescape rfl (.inl htriple)))
    rw [Ends, Kind.delimiter_single htriple]
    exact ⟨readsCode_of_mode hmode _, hlast⟩
  | true =>
    have hnone : quotes = 0 := by
      by_contra hpositive
      obtain ⟨-, hquotes, hmissing⟩ := hfew (Nat.pos_of_ne_zero hpositive)
      refine hmissing (List.IsPrefix.trans ?_ hdelimiter)
      rw [Kind.delimiter, htriple, if_pos rfl, List.prefix_replicate_iff]
      simp
    subst hnone
    rw [Kind.delimiter_triple htriple] at hdelimiter
    obtain ⟨more, hmore⟩ := hdelimiter
    obtain ⟨-, rfl⟩ := List.cons.inj hmore
    obtain ⟨hmode, hlast⟩ := step_of_read
      ((hinside _ rfl).trans (readInside_counts hescape rfl htriple (by omega)))
    obtain ⟨hmode', hlast'⟩ := step_of_read
      ((readsInside_of_mode hmode (kind.quote :: more) _ rfl).trans
        (readInside_counts hescape rfl htriple (by omega)))
    obtain ⟨hmode'', hlast''⟩ := step_of_read
      ((readsInside_of_mode hmode' (kind.quote :: more) _ rfl).trans
        (readInside_closes hescape rfl (.inr rfl)))
    rw [Ends, Kind.delimiter_triple htriple]
    refine ⟨readsCode_of_mode hmode'' _, hlast''.trans ?_⟩
    rw [LookAhead.close, LookAhead.close, hlast', hlast]
    rfl

theorem ends_inside {quotes : Nat}
    (hinside : ReadsInside isWord look kind quotes bytes) (hfew : TooFew kind quotes bytes) :
    Ends isWord look kind bytes (closing? kind bytes) := by
  fun_induction closing? kind bytes generalizing look quotes with
  | case1 => rfl
  | case2 b hescape =>
    exact (step_of_read ((hinside b rfl).trans (readInside_hides hescape quotes))).2
  | case3 b hescape c more ih =>
    obtain ⟨hmode, hlast⟩ :=
      step_of_read ((hinside b rfl).trans (readInside_hides hescape quotes))
    have hhidden : (look.step isWord b).read isWord c =
        { look.step isWord b with mode := .inside kind 0 } := by
      rw [LookAhead.read, hmode]
    obtain ⟨hmode', hlast'⟩ := step_of_read hhidden
    have hmore := ih (readsInside_of_mode hmode' more) (tooFew_zero kind more)
    simpa [Function.comp_def] using (hmore.step hlast').step hlast
  | case4 b rest hescape hdelimiter =>
    have hprefix := List.isPrefixOf_iff_prefix.mp hdelimiter
    obtain rfl : b = kind.quote := by
      by_contra hb
      exact Kind.not_delimiter_prefix hb hprefix
    exact ends_delimiter hinside hfew hescape hprefix
  | case5 b rest hescape hdelimiter ih =>
    have hprefix : ¬kind.delimiter <+: b :: rest :=
      fun hprefix => hdelimiter (List.isPrefixOf_iff_prefix.mpr hprefix)
    by_cases hb : b = kind.quote
    · subst hb
      obtain ⟨htriple, hquotes, hmore⟩ := hfew.of_not_delimiter hprefix
      obtain ⟨hmode, hlast⟩ :=
        step_of_read ((hinside _ rfl).trans (readInside_counts hescape rfl htriple hquotes))
      exact (ih (readsInside_of_mode hmode rest) hmore).step hlast
    · obtain ⟨hmode, hlast⟩ :=
        step_of_read ((hinside b rfl).trans (readInside_passes hescape hb quotes))
      exact (ih (readsInside_of_mode hmode rest) (tooFew_zero kind rest)).step hlast

theorem read_second_quote (hmode : look.mode = .oneQuote kind) :
    look.read isWord kind.quote =
      { look.close (look.offset + 1) with mode := .twoQuotes kind } := by
  rw [LookAhead.read, hmode]
  exact if_pos (beq_self_eq_true kind.quote)

/-- Behind the quote that opens a literal, another one closes it, unless it is the second of
three. -/
theorem ends_opened
    (hmode : look.mode = .oneQuote kind) (hquote : kind.quote ≠ 92)
    (hsingle : kind.triple = false) (htwo : ¬[kind.quote, kind.quote] <+: bytes) :
    Ends isWord look kind bytes (closing? kind bytes) := by
  cases bytes with
  | nil => rfl
  | cons b rest =>
    by_cases hb : b = kind.quote
    · subst hb
      have hprefix : kind.delimiter.isPrefixOf (kind.quote :: rest) = true := by
        simp [Kind.delimiter_single hsingle]
      obtain ⟨hnext, hlast⟩ := step_of_read (read_second_quote hmode)
      rw [closing?_of_delimiter (by simp [hquote]) hprefix, Ends, Kind.delimiter_single hsingle]
      refine ⟨?_, hlast⟩
      intro c hc
      have hother : c ≠ kind.quote := by
        rintro rfl
        obtain ⟨more, rfl⟩ := List.head?_eq_some_iff.mp hc
        exact htwo ⟨more, rfl⟩
      show (look.step isWord kind.quote).read isWord c = _
      rw [LookAhead.read, hnext]
      exact if_neg (by simpa using hother)
    · refine ends_inside (fun c hc => ?_) (tooFew_zero kind (b :: rest))
      obtain rfl := Option.some.inj hc
      rw [LookAhead.read, hmode]
      exact if_neg (by simpa using hb)

end LookAhead

end Literal
end LineShell
