import LineShell.Literal
import LineShell.Proofs.Text.Utf8
import Mathlib.Tactic

/-!
# The letters before a quote

One or two letters are the prefix of a literal if no word goes on into them: they stand at
the very beginning, or behind a character that is no word character.  Such a character
takes at most four bytes, so the last six bytes before a quote show the prefix, and where
they begin in the middle of a character they show no other one.
-/

namespace LineShell
namespace Literal

open Text

/-- The letters that a prefix may consist of. -/
inductive Letters : List Char → Prop where
  | one {c : Char} : isPrefixLetter c = true → Letters [c]
  | two {c d : Char} :
      isPrefixLetter c = true → isPrefixLetter d = true → Letters [c, d]

/-- Bytes end with the letters of a prefix: there is nothing else, or a whole character
stands before them that is no word character. -/
inductive Prefixed (isWord : Char → Bool) : Bytes → List Char → Prop where
  | alone {letters : List Char} :
      Letters letters → Prefixed isWord (Utf8.encodeChars letters) letters
  | behind {front : Bytes} {c : Char} {letters : List Char} :
      isWord c = false → Letters letters →
        Prefixed isWord (front ++ Utf8.encodeChars (c :: letters)) letters

theorem of_isPrefixLetter {p : Char → Bool} (hall : "rRbBfFuU".toList.all p = true)
    {c : Char} (hc : isPrefixLetter c = true) : p c = true :=
  List.all_eq_true.mp hall c (List.contains_iff_mem.mp hc)

theorem toNat_le_of_isPrefixLetter {c : Char} (hc : isPrefixLetter c = true) :
    c.toNat ≤ 0x7F :=
  of_decide_eq_true (of_isPrefixLetter (p := fun d => decide (d.toNat ≤ 0x7F)) (by decide) hc)

theorem isAlpha_of_isPrefixLetter {c : Char} (hc : isPrefixLetter c = true) :
    c.isAlpha = true :=
  of_isPrefixLetter (by decide) hc

theorem isWord_of_isAlpha {c : Char} (hc : c.isAlpha = true) : isWord c = true := by
  have hrange : ∀ range : Nat × Nat, range ∈ wordRanges →
      range.1 ≤ c.toNat ∧ c.toNat ≤ range.2 → isWord c = true := by
    intro range hmem hin
    exact List.any_eq_true.mpr ⟨range, hmem, by simpa using hin⟩
  have hcases : (c.isUpper || c.isLower) = true := hc
  rcases Bool.or_eq_true_iff.mp hcases with hupper | hlower
  · have hin : 'A'.val ≤ c.val ∧ c.val ≤ 'Z'.val := of_decide_eq_true hupper
    exact hrange (0x41, 0x5A) (List.mem_iff_getElem?.mpr ⟨1, rfl⟩) hin
  · obtain ⟨hlow, hhigh⟩ := Bool.and_eq_true_iff.mp hlower
    exact hrange (0x61, 0x7A) (List.mem_iff_getElem?.mpr ⟨3, rfl⟩)
      ⟨of_decide_eq_true hlow, of_decide_eq_true hhigh⟩

namespace Letters

variable {letters : List Char}

theorem length_le (hletters : Letters letters) : letters.length ≤ 2 := by
  cases hletters with
  | one => exact Nat.le_succ 1
  | two => exact le_refl 2

theorem isPrefixLetter_of_mem (hletters : Letters letters) :
    ∀ c ∈ letters, isPrefixLetter c = true := by
  cases hletters with
  | one hc => simpa using hc
  | two hc hd => simpa using ⟨hc, hd⟩

theorem length_encodeChars (hletters : Letters letters) :
    (Utf8.encodeChars letters).length = letters.length :=
  Utf8.length_encodeChars_of_ascii fun c hc =>
    toNat_le_of_isPrefixLetter (hletters.isPrefixLetter_of_mem c hc)

end Letters

variable {isWord : Char → Bool} {before : Bytes} {letters : List Char}

theorem Prefixed.toLetters (hprefixed : Prefixed isWord before letters) : Letters letters := by
  cases hprefixed with
  | alone hletters => exact hletters
  | behind _ hletters => exact hletters

theorem Prefixed.exists_eq (hprefixed : Prefixed isWord before letters) :
    ∃ front, before = front ++ Utf8.encodeChars letters := by
  cases hprefixed with
  | alone => exact ⟨[], rfl⟩
  | @behind front c =>
    refine ⟨front ++ String.utf8EncodeChar c, ?_⟩
    rw [Utf8.encodeChars, List.flatMap_cons, List.append_assoc, Utf8.encodeChars]

/-! ## The count of letters -/

theorem Prefixed.prefixOf_eq_of_count (hprefixed : Prefixed isWord before letters)
    (hcount : prefixCount isWord (Utf8.split before).reverse = letters.length) :
    prefixOf isWord before = Utf8.encodeChars letters := by
  obtain ⟨front, hbefore⟩ := hprefixed.exists_eq
  have hlength : before.length = front.length + letters.length := by
    rw [hbefore, List.length_append, hprefixed.toLetters.length_encodeChars]
  rw [prefixOf, hcount, hlength, Nat.add_sub_cancel, hbefore, List.drop_left]

/-- Where letters are word characters, the letters of a prefix are counted: no letter can
be the character that stands before them. -/
theorem Prefixed.prefixCount_eq
    (hword : ∀ c : Char, c.isAlpha = true → isWord c = true)
    (hprefixed : Prefixed isWord before letters) :
    prefixCount isWord (Utf8.split before).reverse = letters.length := by
  cases hprefixed with
  | alone hletters =>
    rw [Utf8.split_encodeChars]
    cases hletters with
    | one hc => simp [prefixCount, endsWord, hc]
    | two hc hd => simp [prefixCount, endsWord, hc, hd]
  | @behind front c _ hc hletters =>
    have hother : isPrefixLetter c = false := by
      by_contra hletter
      rw [Bool.not_eq_false] at hletter
      rw [hword c (isAlpha_of_isPrefixLetter hletter)] at hc
      cases hc
    rw [Utf8.split_append_encodeChars, List.reverse_append]
    cases hletters with
    | one hd => simp [prefixCount, hd, hother, hc]
    | two hd he => simp [prefixCount, endsWord, hd, he, hc]

theorem Prefixed.prefixOf_eq
    (hword : ∀ c : Char, c.isAlpha = true → isWord c = true)
    (hprefixed : Prefixed isWord before letters) :
    prefixOf isWord before = Utf8.encodeChars letters :=
  hprefixed.prefixOf_eq_of_count (hprefixed.prefixCount_eq hword)

theorem prefixed_of_endsWord {pieces : List Piece} (hexact : Utf8.Exact pieces)
    (hends : endsWord isWord pieces = true) (hletters : Letters letters) :
    Prefixed isWord (pieces.reverse.flatMap Piece.bytes ++ Utf8.encodeChars letters) letters := by
  cases pieces with
  | nil => exact .alone hletters
  | cons piece rest =>
    cases piece with
    | bad bytes => cases hends
    | char c bytes =>
      obtain rfl := hexact c bytes List.mem_cons_self
      have hc : isWord c = false := by simpa [endsWord] using hends
      have hprefixed : Prefixed isWord
          (rest.reverse.flatMap Piece.bytes ++ Utf8.encodeChars (c :: letters)) letters :=
        .behind hc hletters
      simpa [Utf8.encodeChars, Piece.bytes] using hprefixed

/-- Letters that are counted among the last pieces are a prefix. -/
theorem exists_of_prefixCount_ne_zero {pieces : List Piece} (hexact : Utf8.Exact pieces)
    (hcount : prefixCount isWord pieces ≠ 0) :
    ∃ letters, Prefixed isWord (pieces.reverse.flatMap Piece.bytes) letters ∧
      prefixCount isWord pieces = letters.length := by
  cases pieces with
  | nil => exact absurd rfl hcount
  | cons piece rest =>
    cases piece with
    | bad bytes => exact absurd rfl hcount
    | char c bytes =>
      obtain rfl := hexact c bytes List.mem_cons_self
      have hone (hc : isPrefixLetter c = true) (hends : endsWord isWord rest = true) :
          Prefixed isWord
            ((Piece.char c (String.utf8EncodeChar c) :: rest).reverse.flatMap Piece.bytes) [c] := by
        simpa [Utf8.encodeChars, Piece.bytes] using
          prefixed_of_endsWord hexact.of_cons hends (.one hc)
      cases rest with
      | nil =>
        have hc : isPrefixLetter c = true := by
          by_contra hother
          simp [prefixCount, hother] at hcount
        exact ⟨[c], hone hc rfl, by simp [prefixCount, endsWord, hc]⟩
      | cons next more =>
        cases next with
        | bad bytes => simp [prefixCount, endsWord] at hcount
        | char d spelt =>
          obtain rfl := hexact.of_cons d spelt List.mem_cons_self
          have hc : isPrefixLetter c = true := by
            by_contra hother
            simp [prefixCount, hother] at hcount
          by_cases htwo : isPrefixLetter d = true ∧ endsWord isWord more = true
          · refine ⟨[d, c], ?_, by simp [prefixCount, hc, htwo]⟩
            simpa [Utf8.encodeChars, Piece.bytes] using
              prefixed_of_endsWord hexact.of_cons.of_cons htwo.2 (.two htwo.1 hc)
          · have hd : isWord d = false := by
              by_contra hword
              simp [prefixCount, hc, htwo, hword] at hcount
            exact ⟨[c], hone hc (by simp [endsWord, hd]), by simp [prefixCount, hc, htwo, hd]⟩

/-- What is found is a prefix. -/
theorem prefixOf_cases (isWord : Char → Bool) (before : Bytes) :
    prefixOf isWord before = [] ∨
      ∃ letters, Prefixed isWord before letters ∧
        prefixOf isWord before = Utf8.encodeChars letters := by
  by_cases hcount : prefixCount isWord (Utf8.split before).reverse = 0
  · left
    rw [prefixOf, hcount, Nat.sub_zero, List.drop_length]
  · right
    have hexact : Utf8.Exact (Utf8.split before).reverse := fun c bytes hmem =>
      Utf8.split_exact before c bytes (List.mem_reverse.mp hmem)
    obtain ⟨letters, hprefixed, hlength⟩ := exists_of_prefixCount_ne_zero hexact hcount
    rw [List.reverse_reverse, Utf8.split_bytes] at hprefixed
    exact ⟨letters, hprefixed, hprefixed.prefixOf_eq_of_count hlength⟩

/-- Where letters are word characters, what is found is the prefix, and it is empty where
there is none. -/
theorem prefixOf_eq_iff (hword : ∀ c : Char, c.isAlpha = true → isWord c = true) :
    prefixOf isWord before = Utf8.encodeChars letters ↔
      Prefixed isWord before letters ∨
        letters = [] ∧ ∀ found, ¬Prefixed isWord before found := by
  constructor
  · intro hfound
    rcases prefixOf_cases isWord before with hnone | ⟨found, hprefixed, heq⟩
    · replace hnone : prefixOf isWord before = Utf8.encodeChars [] := hnone
      by_cases hex : ∃ other, Prefixed isWord before other
      · obtain ⟨other, hother⟩ := hex
        have hempty := Utf8.encodeChars_injective ((hother.prefixOf_eq hword).symm.trans hnone)
        cases hempty ▸ hother.toLetters
      · right
        exact ⟨Utf8.encodeChars_injective (hfound.symm.trans hnone), not_exists.mp hex⟩
    · left
      rwa [Utf8.encodeChars_injective (hfound.symm.trans heq)]
  · rintro (hprefixed | ⟨rfl, hnone⟩)
    · exact hprefixed.prefixOf_eq hword
    · rcases prefixOf_cases isWord before with hempty | ⟨found, hprefixed, -⟩
      · exact hempty
      · exact absurd hprefixed (hnone found)

/-! ## The window -/

theorem length_encodeChars_le (c : Char) (hletters : Letters letters) :
    (Utf8.encodeChars (c :: letters)).length ≤ window := by
  have hsize := c.utf8Size_le_four
  have hcount := hletters.length_le
  have hlength := hletters.length_encodeChars
  rw [Utf8.encodeChars] at hlength
  rw [Utf8.encodeChars, List.flatMap_cons, List.length_append, hlength,
    String.length_utf8EncodeChar, window]
  omega

theorem prefixed_window_iff :
    Prefixed isWord (before.drop (before.length - window)) letters ↔
      Prefixed isWord before letters := by
  constructor
  · intro hnear
    have hlength : (before.drop (before.length - window)).length =
        before.length - (before.length - window) := List.length_drop
    rw [← List.take_append_drop (before.length - window) before]
    generalize before.drop (before.length - window) = near at hnear hlength
    cases hnear with
    | alone hletters =>
      -- The beginning of the window is a beginning only where it is that of the bytes.
      have hshort := hletters.length_le
      rw [hletters.length_encodeChars] at hlength
      have hall : before.length - window = 0 := by
        rw [window] at hlength ⊢
        omega
      rw [hall, List.take_zero]
      exact .alone hletters
    | behind hc hletters =>
      rw [← List.append_assoc]
      exact .behind hc hletters
  · intro hbefore
    cases hbefore with
    | alone hletters =>
      have hshort := hletters.length_le
      have hall : (Utf8.encodeChars letters).length - window = 0 := by
        rw [hletters.length_encodeChars, window]
        omega
      rw [hall, List.drop_zero]
      exact .alone hletters
    | @behind front c _ hc hletters =>
      have hfits := length_encodeChars_le c hletters
      rw [List.drop_append_of_le_length (by rw [List.length_append]; omega)]
      exact .behind hc hletters

theorem prefixOf_window (hword : ∀ c : Char, c.isAlpha = true → isWord c = true) :
    prefixOf isWord (before.drop (before.length - window)) = prefixOf isWord before := by
  obtain ⟨letters, hletters⟩ : ∃ letters, prefixOf isWord before = Utf8.encodeChars letters := by
    rcases prefixOf_cases isWord before with hnone | ⟨letters, -, hfound⟩
    · exact ⟨[], hnone⟩
    · exact ⟨letters, hfound⟩
  have hbefore := (prefixOf_eq_iff hword).mp hletters
  rw [hletters, prefixOf_eq_iff hword]
  simpa only [prefixed_window_iff] using hbefore

/-- The look ahead has the bytes that it read, the last one first. -/
theorem before_foldl (isWord : Char → Bool) (bytes : Bytes) (look : LookAhead) :
    (bytes.foldl (LookAhead.step isWord) look).before = bytes.reverse ++ look.before := by
  induction bytes generalizing look with
  | nil => rfl
  | cons b rest ih =>
    rw [List.foldl_cons, ih, List.reverse_cons, List.append_assoc]
    rfl

theorem offset_foldl (isWord : Char → Bool) (bytes : Bytes) (look : LookAhead) :
    (bytes.foldl (LookAhead.step isWord) look).offset = look.offset + bytes.length := by
  induction bytes generalizing look with
  | nil => rfl
  | cons b rest ih =>
    rw [List.foldl_cons, ih, List.length_cons, Nat.add_comm rest.length, ← Nat.add_assoc]
    rfl

theorem near_eq (bytes : Bytes) :
    (bytes.reverse.take window).reverse = bytes.drop (bytes.length - window) := by
  rw [List.take_reverse, List.reverse_reverse]

/-- Whatever bytes the look ahead has read, those near their end show the prefix of a
literal that opens behind them, if letters are word characters: the same letters are a
prefix for the near bytes and for all of them, and they are what is found in either. -/
theorem near_bytes_show_prefix
    (hword : ∀ c : Char, c.isAlpha = true → isWord c = true) (bytes : Bytes)
    (letters : List Char) :
    let look := bytes.foldl (LookAhead.step isWord) LookAhead.initial
    let near := (look.before.take window).reverse
    near = bytes.drop (bytes.length - window) ∧
      (Prefixed isWord near letters ↔ Prefixed isWord bytes letters) ∧
      prefixOf isWord near = prefixOf isWord bytes ∧
      (prefixOf isWord bytes = Utf8.encodeChars letters ↔
        Prefixed isWord bytes letters ∨
          letters = [] ∧ ∀ found, ¬Prefixed isWord bytes found) := by
  intro look near
  have hbefore : look.before = bytes.reverse :=
    (before_foldl isWord bytes LookAhead.initial).trans (List.append_nil _)
  have hnear : near = bytes.drop (bytes.length - window) := by
    rw [← near_eq, ← hbefore]
  refine ⟨hnear, ?_, ?_, prefixOf_eq_iff hword⟩
  · rw [hnear, prefixed_window_iff]
  · rw [hnear, prefixOf_window hword]

/-- The window begins with the last byte of a character, and shows the two letters behind
the dash. -/
theorem prefix_behind_cut_character :
    let look := (Utf8.encode "日—rb").foldl (LookAhead.step Text.isWord) LookAhead.initial
    let near := (look.before.take window).reverse
    (∀ c : Char, c.isAlpha = true → Text.isWord c = true) ∧
      near = 0xA5 :: Utf8.encode "—rb" ∧
      Prefixed Text.isWord near ['r', 'b'] ∧
      prefixOf Text.isWord near = Utf8.encode "rb" := by
  intro look near
  have hword : ∀ c : Char, c.isAlpha = true → Text.isWord c = true := fun _ => isWord_of_isAlpha
  have hdash : Text.isWord '—' = false := by decide +kernel
  have hprefixed : Prefixed Text.isWord (Utf8.encode "日—rb") ['r', 'b'] := by
    have hbehind : Prefixed Text.isWord
        (Utf8.encodeChars ['日'] ++ Utf8.encodeChars ('—' :: ['r', 'b'])) ['r', 'b'] :=
      .behind hdash (.two rfl rfl)
    exact hbehind
  obtain ⟨hnear, hiff, heq, hfound⟩ :=
    near_bytes_show_prefix hword (Utf8.encode "日—rb") ['r', 'b']
  exact ⟨hword, hnear.trans rfl, hiff.mpr hprefixed,
    heq.trans (hfound.mpr (.inl hprefixed))⟩

end Literal
end LineShell
