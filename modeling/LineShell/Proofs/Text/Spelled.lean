import LineShell.Proofs.Text.Numeral
import Mathlib.Data.List.TakeWhile

/-!
# Texts that spell numbers

A numeral is a text of decimal digits with a sign or without one.  Reading takes exactly the
numerals whose number is in the range, and a count may have blanks around it.  A text of
hexadecimal digits differs from the one that its number is written as in the case of letters
alone.
-/

namespace LineShell
namespace Text
namespace Numeral

/-! ## Digits -/

/-- A text of decimal digits, at least one, and the number that they spell. -/
structure Digits (text : List Char) (n : Nat) : Prop where
  ne_nil : text ≠ []
  isDigit : ∀ c ∈ text, c.isDigit
  value_eq : Nat.ofDigitChars 10 text 0 = n

theorem digitIn?_ten (c : Char) :
    digitIn? 10 c = if c.isDigit then some (c.toNat - '0'.toNat) else none := by
  have hrange : c.isDigit = true ↔ '0' ≤ c ∧ c ≤ '9' := by
    simp [Char.isDigit, Char.le_def, UInt32.le_iff_toNat_le]
  unfold digitIn? digit?
  simp only [hrange]
  split_ifs with hdigit hsmall hcapital
  · have hlast : c.toNat ≤ 57 := hdigit.2
    have hzero : '0'.toNat = 48 := rfl
    rw [Option.filter_some, if_pos (by simp; omega)]
  · rw [Option.filter_some, if_neg (by simp)]
  · rw [Option.filter_some, if_neg (by simp)]
  · rfl

theorem readFrom?_ten_eq_some_iff {value n : Nat} {text : List Char} :
    readFrom? 10 value text = some n ↔
      (∀ c ∈ text, c.isDigit) ∧ Nat.ofDigitChars 10 text value = n := by
  induction text generalizing value with
  | nil => simp [readFrom?]
  | cons c rest ih =>
    rw [readFrom?, digitIn?_ten, List.forall_mem_cons, Nat.ofDigitChars_cons, Nat.mul_comm]
    split_ifs with hdigit
    · simpa [hdigit] using ih
    · simp [hdigit]

theorem read?_ten_eq_some_iff {n : Nat} {text : List Char} :
    read? 10 text = some n ↔ Digits text n := by
  unfold read?
  split_ifs with hempty
  · constructor
    · intro hread
      cases hread
    · intro hdigits
      exact absurd (List.isEmpty_iff.mp hempty) hdigits.ne_nil
  · rw [readFrom?_ten_eq_some_iff]
    constructor
    · rintro ⟨hdigits, hvalue⟩
      exact ⟨by simpa using hempty, hdigits, hvalue⟩
    · exact fun hdigits => ⟨hdigits.isDigit, hdigits.value_eq⟩

theorem Digits.not_cons
    {c : Char} (hc : c.isDigit = false) (rest : List Char) (n : Nat) : ¬ Digits (c :: rest) n := by
  intro hdigits
  have hdigit := hdigits.isDigit c List.mem_cons_self
  rw [hc] at hdigit
  cases hdigit

/-! ## Hexadecimal digits -/

theorem digit?_of_high {c : Char} (hc : 0x7F < c.toNat) : digit? c = none := by
  have hrange : ∀ low high : Char, high.toNat ≤ 0x7F → ¬(low ≤ c ∧ c ≤ high) := by
    rintro low high hhigh ⟨-, hle⟩
    rw [Char.le_def, UInt32.le_iff_toNat_le] at hle
    exact absurd (hc.trans_le hle) (Nat.not_lt.mpr hhigh)
  rw [digit?, if_neg (hrange _ _ (by decide)), if_neg (hrange _ _ (by decide)),
    if_neg (hrange _ _ (by decide))]

theorem digitIn?_sixteen_eq_some_iff {c : Char} {d : Nat} :
    digitIn? 16 c = some d ↔ d < 16 ∧ c.toLower = Nat.digitChar d := by
  by_cases hd : d < 16
  · rw [and_iff_right hd]
    by_cases hascii : c.toNat < 128
    · have htable : ∀ n < 128, ∀ d < 16, digitIn? 16 (Char.ofNat n) = some d ↔
          (Char.ofNat n).toLower = Nat.digitChar d := by
        decide +kernel
      have hchar := htable c.toNat hascii d hd
      rwa [Char.ofNat_toNat] at hchar
    · have hsmall : ∀ d < 16, (Nat.digitChar d).toNat < 128 := by decide
      have hlower : c.toLower = c := by
        have hupper : ¬(c.val ≥ 'A'.val ∧ c.val ≤ 'Z'.val) := by
          rintro ⟨-, hle⟩
          exact hascii (Nat.lt_of_le_of_lt hle (by decide))
        exact dif_neg hupper
      rw [digitIn?, digit?_of_high (by omega), hlower]
      constructor
      · intro hnone
        cases hnone
      · rintro rfl
        exact absurd (hsmall d hd) hascii
  · constructor
    · intro hdigit
      rw [digitIn?, Option.filter_eq_some_iff] at hdigit
      exact absurd (by simpa using hdigit.2) hd
    · exact fun hboth => absurd hboth.1 hd

theorem isSome_digitIn?_sixteen (c : Char) : (digitIn? 16 c).isSome = c.isHexDigit := by
  by_cases hascii : c.toNat < 128
  · have htable : ∀ n < 128, (digitIn? 16 (Char.ofNat n)).isSome = (Char.ofNat n).isHexDigit := by
      decide +kernel
    have hchar := htable c.toNat hascii
    rwa [Char.ofNat_toNat] at hchar
  · have hval : 128 ≤ c.val.toNat := Nat.not_lt.mp hascii
    have hhex : c.isHexDigit = false := by
      simp only [Char.isHexDigit, Char.isDigit, ge_iff_le, UInt32.le_iff_toNat_le,
        Bool.or_eq_false_iff, Bool.and_eq_false_iff, decide_eq_false_iff_not]
      exact ⟨⟨Or.inr (by simp; omega), Or.inr (by simp; omega)⟩, Or.inr (by simp; omega)⟩
    rw [digitIn?, digit?_of_high (by omega), hhex]
    rfl

theorem isSome_readFrom? (base value : Nat) (text : List Char) :
    (readFrom? base value text).isSome ↔ ∀ c ∈ text, (digitIn? base c).isSome := by
  induction text generalizing value with
  | nil => simp [readFrom?]
  | cons c rest ih =>
    rw [readFrom?, List.forall_mem_cons]
    cases digitIn? base c with
    | none => simp
    | some d => simpa using ih (value * base + d)

/-- A text reads as a hexadecimal number exactly if it is what the number is written as, in
so many places, up to the case of letters. -/
theorem readFrom?_sixteen_eq_some_iff {n : Nat} {text : List Char} :
    readFrom? 16 0 text = some n ↔
      n < 16 ^ text.length ∧ text.map Char.toLower = hex text.length n := by
  induction text using List.reverseRecOn generalizing n with
  | nil =>
    constructor
    · intro hread
      cases hread
      exact ⟨Nat.one_pos, rfl⟩
    · rintro ⟨hn, -⟩
      obtain rfl : n = 0 := Nat.lt_one_iff.mp hn
      rfl
  | append_singleton front c ih =>
    have hread : readFrom? 16 0 (front ++ [c]) = some n ↔
        ∃ m d, readFrom? 16 0 front = some m ∧ digitIn? 16 c = some d ∧ m * 16 + d = n := by
      rw [readFrom?_append]
      simp [readFrom?, Option.bind_eq_some_iff]
    rw [hread, List.map_append, List.length_append, List.length_singleton, hex, pow_succ]
    constructor
    · rintro ⟨m, d, hfront, hdigit, rfl⟩
      obtain ⟨hm, hlower⟩ := ih.mp hfront
      obtain ⟨hd, hlast⟩ := digitIn?_sixteen_eq_some_iff.mp hdigit
      have hhigh : (m * 16 + d) / 16 = m := by omega
      have hlow : (m * 16 + d) % 16 = d := by omega
      rw [hhigh, hlow, hlower, List.map_singleton, hlast]
      exact ⟨by omega, rfl⟩
    · rintro ⟨hn, hlower⟩
      obtain ⟨hfront, hlast⟩ := List.append_inj hlower (by simp)
      refine ⟨n / 16, n % 16, ih.mpr ⟨by omega, hfront⟩, ?_, by omega⟩
      exact digitIn?_sixteen_eq_some_iff.mpr ⟨by omega, by simpa using hlast⟩

/-! ## Signs -/

/-- Digits behind a plus sign or none, and the number that they spell. -/
inductive Unsigned : List Char → Nat → Prop where
  | plain {digits : List Char} {n : Nat} : Digits digits n → Unsigned digits n
  | plus {digits : List Char} {n : Nat} : Digits digits n → Unsigned ('+' :: digits) n

/-- Digits behind a sign or none, and the number that is spelled. -/
inductive Signed : List Char → Int → Prop where
  | plain {digits : List Char} {n : Nat} : Digits digits n → Signed digits n
  | plus {digits : List Char} {n : Nat} : Digits digits n → Signed ('+' :: digits) n
  | minus {digits : List Char} {n : Nat} : Digits digits n → Signed ('-' :: digits) (-n)

theorem unsigned?_eq_some_iff {bound n : Nat} {text : List Char} :
    unsigned? 10 bound text = some n ↔ Unsigned text n ∧ n < bound := by
  unfold unsigned?
  split
  · rename_i digits
    rw [Option.filter_eq_some_iff, read?_ten_eq_some_iff, decide_eq_true_eq]
    refine and_congr_left fun _ => ⟨.plus, ?_⟩
    rintro (hdigits | hdigits)
    · exact absurd hdigits (Digits.not_cons rfl digits n)
    · exact hdigits
  · rename_i hplus
    dsimp only
    rw [Option.filter_eq_some_iff, read?_ten_eq_some_iff, decide_eq_true_eq]
    refine and_congr_left fun _ => ⟨.plain, ?_⟩
    rintro (hdigits | hdigits)
    · exact hdigits
    · exact absurd rfl (hplus _)

theorem signed?_eq_some_iff {bound : Nat} {n : Int} {text : List Char} :
    signed? bound text = some n ↔ Signed text n ∧ -(bound : Int) ≤ n ∧ n < bound := by
  have hread : ∀ {digits : List Char} {f : Int → Int},
      Option.map f (read? 10 digits >>= fun m => pure (m : Int)) = some n ↔
        ∃ m : Nat, Digits digits m ∧ f m = n := by
    intro digits f
    simp [Option.bind_eq_some_iff, read?_ten_eq_some_iff]
  unfold signed?
  dsimp only
  rw [Option.filter_eq_some_iff, Bool.and_eq_true, decide_eq_true_eq, decide_eq_true_eq]
  refine and_congr_left fun _ => ?_
  split
  · rename_i digits
    rw [hread]
    constructor
    · rintro ⟨m, hdigits, rfl⟩
      exact .minus hdigits
    · rintro (hdigits | hdigits | hdigits)
      · exact absurd hdigits (Digits.not_cons rfl digits _)
      · exact ⟨_, hdigits, rfl⟩
  · rename_i digits
    rw [hread]
    constructor
    · rintro ⟨m, hdigits, rfl⟩
      exact .plus hdigits
    · rintro (hdigits | hdigits | hdigits)
      · exact absurd hdigits (Digits.not_cons rfl digits _)
      · exact ⟨_, hdigits, rfl⟩
  · rename_i hminus hplus
    rw [hread]
    constructor
    · rintro ⟨m, hdigits, rfl⟩
      exact .plain hdigits
    · rintro (hdigits | hdigits | hdigits)
      · exact ⟨_, hdigits, rfl⟩
      · exact absurd rfl (hplus _)
      · exact absurd rfl (hminus _)

theorem Unsigned.ne_nil {text : List Char} {n : Nat} (hspelled : Unsigned text n) :
    text ≠ [] := by
  cases hspelled with
  | plain hdigits => exact hdigits.ne_nil
  | plus hdigits => exact List.cons_ne_nil _ _

/-- A numeral without a minus sign holds digits and perhaps a plus sign. -/
theorem Unsigned.of_mem {text : List Char} {n : Nat} (hspelled : Unsigned text n) :
    ∀ c ∈ text, c = '+' ∨ c.isDigit := by
  intro c hc
  cases hspelled with
  | plain hdigits => exact Or.inr (hdigits.isDigit c hc)
  | plus hdigits =>
    rcases List.mem_cons.mp hc with rfl | hrest
    · exact Or.inl rfl
    · exact Or.inr (hdigits.isDigit c hrest)

theorem Unsigned.isBlank_of_mem {text : List Char} {n : Nat} (hspelled : Unsigned text n) :
    ∀ c ∈ text, isBlank c = false := by
  intro c hc
  rcases hspelled.of_mem c hc with rfl | hdigit
  · decide
  · exact isBlank_of_isDigit hdigit

/-! ## Words of a fixed size -/

theorem word32?_eq_some_iff {text : List Char} {w : UInt32} :
    word32? text = some w ↔ Unsigned text w.toNat := by
  rw [word32?, Option.map_eq_some_iff]
  constructor
  · rintro ⟨n, hread, rfl⟩
    obtain ⟨hspelled, hn⟩ := unsigned?_eq_some_iff.mp hread
    rwa [UInt32.toNat_ofNat_of_lt' hn]
  · intro hspelled
    exact ⟨w.toNat, unsigned?_eq_some_iff.mpr ⟨hspelled, w.toNat_lt⟩, UInt32.ofNat_toNat⟩

theorem int64?_eq_some_iff {text : List Char} {n : Int64} :
    int64? text = some n ↔ Signed text n.toInt := by
  rw [int64?, Option.map_eq_some_iff]
  constructor
  · rintro ⟨m, hread, rfl⟩
    obtain ⟨hspelled, hlow, hhigh⟩ := signed?_eq_some_iff.mp hread
    rwa [Int64.toInt_ofInt_of_le (by simpa using hlow) (by simpa using hhigh)]
  · intro hspelled
    have hlow := n.le_toInt
    have hhigh := n.toInt_lt
    refine ⟨n.toInt, signed?_eq_some_iff.mpr ⟨hspelled, ?_, ?_⟩, Int64.ofInt_toInt n⟩
    · norm_num
      omega
    · norm_num
      omega

theorem integerText_eq_toString (n : Int) : integerText n = toString n := by
  rw [Int.toString_eq_repr, Int.repr_eq_if, integerText, integer]
  by_cases hneg : n < 0
  · have habs : n.natAbs = (-n).toNat := by omega
    rw [if_pos hneg, if_neg (by omega), habs, ← String.toList_inj]
    simp [natural]
  · have habs : n.natAbs = n.toNat := by omega
    rw [if_neg hneg, if_pos (by omega), habs]
    rfl

end Numeral

/-! ## Blanks around a numeral -/

theorem exists_eq_append_trim (text : List Char) :
    ∃ front back, text = front ++ trim text ++ back ∧ (∀ c ∈ front, isBlank c) ∧
      ∀ c ∈ back, isBlank c := by
  refine ⟨text.takeWhile isBlank, ((trimStart text).reverse.takeWhile isBlank).reverse,
    ?_, ?_, ?_⟩
  · rw [trim, trimEnd, List.append_assoc, ← List.reverse_append, List.takeWhile_append_dropWhile,
      List.reverse_reverse, trimStart, List.takeWhile_append_dropWhile]
  · exact fun c hc => List.mem_takeWhile_imp hc
  · exact fun c hc => List.mem_takeWhile_imp (List.mem_reverse.mp hc)

theorem trimStart_append
    {front text : List Char} (hfront : ∀ c ∈ front, isBlank c) :
    trimStart (front ++ text) = trimStart text := by
  rw [trimStart, List.dropWhile_append_of_pos hfront, trimStart]

theorem trimEnd_append
    {text back : List Char} (hback : ∀ c ∈ back, isBlank c) :
    trimEnd (text ++ back) = trimEnd text := by
  rw [trimEnd, List.reverse_append, List.dropWhile_append_of_pos (by simpa using hback), trimEnd]

theorem trim_append
    {front text back : List Char} (hfront : ∀ c ∈ front, isBlank c) (hne : text ≠ [])
    (htext : ∀ c ∈ text, isBlank c = false) (hback : ∀ c ∈ back, isBlank c) :
    trim (front ++ text ++ back) = text := by
  have hstart : ∀ more, trimStart (text ++ more) = text ++ more := by
    intro more
    obtain ⟨c, rest, rfl⟩ := List.exists_cons_of_ne_nil hne
    rw [trimStart, List.cons_append, List.dropWhile_cons, htext c List.mem_cons_self]
    rfl
  have hend : trimEnd text = text := by
    have htrim := trim_of_isBlank_eq_false htext
    have hbare := hstart []
    rw [List.append_nil] at hbare
    rwa [trim, hbare] at htrim
  rw [trim, List.append_assoc, trimStart_append hfront, hstart, trimEnd_append hback, hend]

/-- One numeral without a minus sign, with blanks around it, and its number. -/
def SpellsCount (text : List Char) (count : UInt32) : Prop :=
  ∃ front numeral back, text = front ++ numeral ++ back ∧ (∀ c ∈ front, isBlank c) ∧
    (∀ c ∈ back, isBlank c) ∧ Numeral.Unsigned numeral count.toNat

theorem word32?_trim_eq_some_iff {text : List Char} {count : UInt32} :
    Numeral.word32? (trim text) = some count ↔ SpellsCount text count := by
  rw [Numeral.word32?_eq_some_iff]
  constructor
  · intro hspelled
    obtain ⟨front, back, htext, hfront, hback⟩ := exists_eq_append_trim text
    exact ⟨front, trim text, back, htext, hfront, hback, hspelled⟩
  · rintro ⟨front, numeral, back, rfl, hfront, hback, hspelled⟩
    rwa [trim_append hfront hspelled.ne_nil hspelled.isBlank_of_mem hback]

end Text
end LineShell
