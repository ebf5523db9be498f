import LineShell.Text.Blank
import LineShell.Text.Numeral
import Mathlib.Tactic

/-!
# Written numerals read back

The digits that a number is written with are read one after the other, and the value of
those read so far is the number without its last digits.  A written numeral holds
digits and perhaps a minus, so neither a sign nor a blank is mistaken in it.
-/

namespace LineShell
namespace Text
namespace Numeral

theorem digitIn?_digitChar {base d : Nat} (hbase : base ≤ 16) (hd : d < base) :
    digitIn? base (Nat.digitChar d) = some d := by
  have hdigit : ∀ d < 16, digit? (Nat.digitChar d) = some d := by decide
  rw [digitIn?, hdigit d (by omega), Option.filter_some, if_pos (by simpa using hd)]

theorem readFrom?_append (base value : Nat) (text more : List Char) :
    readFrom? base value (text ++ more) =
      (readFrom? base value text).bind fun value => readFrom? base value more := by
  induction text generalizing value with
  | nil => rfl
  | cons c rest ih =>
    rw [List.cons_append, readFrom?, readFrom?]
    cases digitIn? base c with
    | none => rfl
    | some d => exact ih (value * base + d)

theorem readFrom?_toDigits {base : Nat} (hlow : 1 < base) (hhigh : base ≤ 16) (n : Nat) :
    readFrom? base 0 (Nat.toDigits base n) = some n := by
  induction n using Nat.strongRecOn with
  | ind n ih =>
    rw [Nat.toDigits_eq_if hlow]
    split
    · rename_i hone
      rw [readFrom?, digitIn?_digitChar hhigh hone, Option.bind_eq_bind, Option.bind_some,
        Nat.zero_mul, Nat.zero_add]
      rfl
    · rename_i hmore
      have hfront := ih (n / base) (Nat.div_lt_self (by omega) hlow)
      rw [readFrom?_append, hfront, Option.bind_some, readFrom?,
        digitIn?_digitChar hhigh (Nat.mod_lt n (by omega)), Option.bind_eq_bind,
        Option.bind_some, Nat.div_add_mod']
      rfl

/-- Digits of a fixed width spell what a number has at its last places. -/
theorem readFrom?_hex (width n : Nat) :
    readFrom? 16 0 (hex width n) = some (n % 16 ^ width) := by
  induction width generalizing n with
  | zero =>
    rw [Nat.pow_zero, Nat.mod_one]
    rfl
  | succ width ih =>
    have hplaces : n % 16 ^ (width + 1) = n / 16 % 16 ^ width * 16 + n % 16 := by
      rw [Nat.pow_succ', Nat.mod_mul, Nat.add_comm, Nat.mul_comm]
    rw [hex, readFrom?_append, ih, Option.bind_some, readFrom?,
      digitIn?_digitChar (by decide) (Nat.mod_lt n (by decide)), hplaces]
    rfl

theorem hex_inj {width n m : Nat} (hn : n < 16 ^ width) (hm : m < 16 ^ width)
    (hsame : hex width n = hex width m) : n = m := by
  have hread := readFrom?_hex width n
  rw [hsame, readFrom?_hex, Nat.mod_eq_of_lt hn, Nat.mod_eq_of_lt hm] at hread
  exact (Option.some.inj hread).symm

@[simp] theorem length_hex (width n : Nat) : (hex width n).length = width := by
  induction width generalizing n with
  | zero => rfl
  | succ width ih => rw [hex, List.length_append, ih, List.length_singleton]

theorem exists_of_mem_hex {width n : Nat} {c : Char} (hc : c ∈ hex width n) :
    ∃ d < 16, c = Nat.digitChar d := by
  induction width generalizing n with
  | zero => cases hc
  | succ width ih =>
    rw [hex, List.mem_append, List.mem_singleton] at hc
    cases hc with
    | inl hfront => exact ih hfront
    | inr hlast => exact ⟨n % 16, Nat.mod_lt n (by decide), hlast⟩

theorem read?_natural (n : Nat) : read? 10 (natural n) = some n := by
  have hne : (natural n).isEmpty = false := by
    simp [natural]
  rw [read?, hne]
  exact readFrom?_toDigits (by decide) (by decide) n

theorem isDigit_of_mem_natural {n : Nat} {c : Char} (hc : c ∈ natural n) : c.isDigit :=
  Nat.isDigit_of_mem_toDigits (by decide) (by decide) hc

/-- A written number begins with a digit. -/
theorem exists_natural_eq_cons (n : Nat) :
    ∃ c rest, natural n = c :: rest ∧ c ≠ '+' ∧ c ≠ '-' := by
  have hne : natural n ≠ [] := Nat.toDigits_ne_nil
  obtain ⟨c, rest, htext⟩ := List.exists_cons_of_ne_nil hne
  have hdigit : c.isDigit := isDigit_of_mem_natural (n := n) (htext ▸ List.mem_cons_self)
  refine ⟨c, rest, htext, ?_, ?_⟩
  · rintro rfl
    exact absurd hdigit (by decide)
  · rintro rfl
    exact absurd hdigit (by decide)

theorem unsigned?_natural {bound n : Nat} (hn : n < bound) :
    unsigned? 10 bound (natural n) = some n := by
  obtain ⟨c, rest, htext, hplus, -⟩ := exists_natural_eq_cons n
  have hread := read?_natural n
  rw [htext] at hread ⊢
  unfold unsigned?
  split
  · rename_i digits hsign
    exact absurd (List.cons.inj hsign).1 hplus
  · dsimp only
    rw [hread, Option.filter_some, if_pos (by simpa using hn)]

theorem word32?_natural (w : UInt32) : word32? (natural w.toNat) = some w := by
  rw [word32?, unsigned?_natural w.toNat_lt, Option.map_some, UInt32.ofNat_toNat]

theorem signed?_integer {bound : Nat} {n : Int} (hlow : -(bound : Int) ≤ n)
    (hhigh : n < (bound : Int)) : signed? bound (integer n) = some n := by
  have hrange : (decide (-(bound : Int) ≤ n) && decide (n < (bound : Int))) = true := by
    simp [hlow, hhigh]
  unfold signed? integer
  split_ifs with hneg
  · have hvalue : -((n.natAbs : Nat) : Int) = n := by omega
    simp only [read?_natural]
    change Option.filter _ (some (-((n.natAbs : Nat) : Int))) = some n
    rw [hvalue, Option.filter_some, if_pos hrange]
  · obtain ⟨c, rest, htext, hplus, hminus⟩ := exists_natural_eq_cons n.natAbs
    have hread := read?_natural n.natAbs
    have hvalue : ((n.natAbs : Nat) : Int) = n := by omega
    rw [htext] at hread ⊢
    dsimp only
    split
    · rename_i digits hsign
      exact absurd (List.cons.inj hsign).1 hminus
    · rename_i digits hsign
      exact absurd (List.cons.inj hsign).1 hplus
    · rw [hread]
      change Option.filter _ (some ((n.natAbs : Nat) : Int)) = some n
      rw [hvalue, Option.filter_some, if_pos hrange]

theorem int32?_integer (n : Int32) : int32? (integer n.toInt) = some n := by
  have hlow := n.le_toInt
  have hhigh := n.toInt_lt
  rw [int32?, signed?_integer (by norm_num; omega) (by norm_num; omega), Option.map_some,
    Int32.ofInt_toInt]

end Numeral

/-! ## Blanks -/

theorem isBlank_of_isDigit {c : Char} (hc : c.isDigit) : isBlank c = false := by
  have hrange : 48 ≤ c.toNat ∧ c.toNat ≤ 57 := by
    simpa [Char.isDigit, UInt32.le_iff_toNat_le] using hc
  simp only [isBlank, Bool.or_eq_false_iff, Bool.and_eq_false_iff, decide_eq_false_iff_not,
    beq_eq_false_iff_ne]
  omega

theorem trim_of_isBlank_eq_false {text : List Char} (htext : ∀ c ∈ text, isBlank c = false) :
    trim text = text := by
  have hkeep : ∀ text : List Char, (∀ c ∈ text, isBlank c = false) →
      text.dropWhile isBlank = text := by
    intro text hall
    cases text with
    | nil => rfl
    | cons c rest =>
      rw [List.dropWhile_cons, hall c List.mem_cons_self]
      rfl
  rw [trim, trimStart, trimEnd, hkeep text htext,
    hkeep text.reverse fun c hc => htext c (List.mem_reverse.mp hc), List.reverse_reverse]

theorem trim_natural (n : Nat) : trim (Numeral.natural n) = Numeral.natural n :=
  trim_of_isBlank_eq_false fun _ hc => isBlank_of_isDigit (Numeral.isDigit_of_mem_natural hc)

end Text
end LineShell
