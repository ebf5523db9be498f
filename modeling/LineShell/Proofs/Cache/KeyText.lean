import LineShell.Cache.Key
import LineShell.Proofs.Text.Spelled
import LineShell.Proofs.Text.Utf8
import Mathlib.Tactic

/-!
# Texts of keys

A key is written with thirty-two hexadecimal digits in small letters.  It is read from any
text of so many digits, in letters of either case, that spells its number; and a plus sign
may stand in front where the first digit would be a zero.
-/

namespace LineShell
namespace Cache
namespace Key

open Text

/-- The digits of a text, with a zero for a plus sign in front. -/
def digitsOf (text : String) : List Char :=
  match text.toList with
  | '+' :: rest => '0' :: rest
  | digits => digits

theorem digitsOf_of_plus {text : String} {rest : List Char} (htext : text.toList = '+' :: rest) :
    digitsOf text = '0' :: rest := by
  simp [digitsOf, htext]

theorem digitsOf_of_not_plus {text : String} (htext : ∀ rest, text.toList ≠ '+' :: rest) :
    digitsOf text = text.toList := by
  unfold digitsOf
  split
  · rename_i rest hplus
    exact absurd hplus (htext rest)
  · rfl

theorem length_digitsOf (text : String) : (digitsOf text).length = text.toList.length := by
  by_cases hplus : ∃ rest, text.toList = '+' :: rest
  · obtain ⟨rest, htext⟩ := hplus
    rw [digitsOf_of_plus htext, htext, List.length_cons, List.length_cons]
  · rw [digitsOf_of_not_plus (not_exists.mp hplus)]

theorem le_of_isHexDigit {c : Char} (hc : c.isHexDigit) : c.toNat ≤ 0x7F := by
  rw [← Numeral.isSome_digitIn?_sixteen] at hc
  by_contra hhigh
  rw [Numeral.digitIn?, Numeral.digit?_of_high (Nat.not_le.mp hhigh)] at hc
  cases hc

theorem length_encode {text : String} (hdigits : ∀ c ∈ digitsOf text, c.isHexDigit) :
    (Utf8.encode text).length = (digitsOf text).length := by
  rw [length_digitsOf]
  apply Utf8.length_encodeChars_of_ascii
  intro c hc
  by_cases hplus : ∃ rest, text.toList = '+' :: rest
  · obtain ⟨rest, htext⟩ := hplus
    rw [digitsOf_of_plus htext] at hdigits
    rw [htext] at hc
    rcases List.mem_cons.mp hc with rfl | hrest
    · decide
    · exact le_of_isHexDigit (hdigits c (List.mem_cons_of_mem _ hrest))
  · rw [digitsOf_of_not_plus (not_exists.mp hplus)] at hdigits
    exact le_of_isHexDigit (hdigits c hc)

theorem isSome_readFrom?_iff (digits : List Char) :
    (Numeral.readFrom? 16 0 digits).isSome ↔ ∀ c ∈ digits, c.isHexDigit := by
  simp only [Numeral.isSome_readFrom?, Numeral.isSome_digitIn?_sixteen]

/-- The zero for a plus sign adds nothing to the number; but there must be a digit behind
the sign. -/
theorem unsigned?_eq_some_iff {bound n : Nat} {text : String} :
    Numeral.unsigned? 16 bound text.toList = some n ↔
      text.toList ≠ [] ∧ text.toList ≠ ['+'] ∧
        Numeral.readFrom? 16 0 (digitsOf text) = some n ∧ n < bound := by
  have hread : ∀ digits : List Char, Numeral.read? 16 digits = some n ↔
      digits ≠ [] ∧ Numeral.readFrom? 16 0 digits = some n := by
    intro digits
    rw [Numeral.read?]
    split_ifs with hempty
    · simp [List.isEmpty_iff.mp hempty]
    · simp [List.isEmpty_iff.not.mp hempty]
  unfold Numeral.unsigned?
  split
  · rename_i rest htext
    have hzero : Numeral.readFrom? 16 0 ('0' :: rest) = Numeral.readFrom? 16 0 rest := rfl
    dsimp only
    rw [Option.filter_eq_some_iff, hread, digitsOf_of_plus htext, hzero, htext]
    simp [and_assoc]
  · rename_i hplus
    have hsign : text.toList ≠ ['+'] := hplus []
    dsimp only
    rw [Option.filter_eq_some_iff, hread, digitsOf_of_not_plus hplus]
    simp [and_assoc, hsign]

theorem parse?_eq_some_iff {text : String} {key : Key} :
    parse? text = some key ↔
      (digitsOf text).length = 32 ∧
        Numeral.readFrom? 16 0 (digitsOf text) = some key.value.toNat := by
  unfold parse?
  constructor
  · intro hparse
    split_ifs at hparse with hlength
    obtain ⟨n, hnumber, rfl⟩ := Option.map_eq_some_iff.mp hparse
    obtain ⟨-, -, hread, hn⟩ := unsigned?_eq_some_iff.mp hnumber
    have hdigits := (isSome_readFrom?_iff _).mp (Option.isSome_of_eq_some hread)
    refine ⟨by rw [← length_encode hdigits, hlength], ?_⟩
    rw [hread, BitVec.toNat_ofNat, Nat.mod_eq_of_lt (by simpa using hn)]
  · rintro ⟨hlength, hread⟩
    have hdigits := (isSome_readFrom?_iff _).mp (Option.isSome_of_eq_some hread)
    have hshort : ∀ short : List Char, short.length < 32 → text.toList ≠ short := by
      rintro short hshort rfl
      rw [length_digitsOf] at hlength
      omega
    have hn : key.value.toNat < 1 <<< 128 := key.value.isLt
    rw [if_pos (by rw [length_encode hdigits, hlength]),
      unsigned?_eq_some_iff.mpr ⟨hshort [] (by decide), hshort ['+'] (by decide), hread, hn⟩]
    simp

theorem toList_render (key : Key) : key.render.toList = Numeral.hex 32 key.value.toNat := by
  rw [render, Numeral.hexText, String.toList_ofList]

theorem parse?_eq_some_iff_toLower {text : String} {key : Key} :
    parse? text = some key ↔ (digitsOf text).map Char.toLower = key.render.toList := by
  rw [parse?_eq_some_iff, Numeral.readFrom?_sixteen_eq_some_iff, toList_render]
  constructor
  · rintro ⟨hlength, -, hlower⟩
    rw [hlower, hlength]
  · intro hlower
    have hlength : (digitsOf text).length = 32 := by
      rw [← List.length_map Char.toLower, hlower, Numeral.length_hex]
    rw [hlength]
    exact ⟨rfl, key.value.isLt, hlower⟩

/-- What a key is written as begins with a digit and holds no capital. -/
theorem toLower_digitsOf_render (key : Key) :
    (digitsOf key.render).map Char.toLower = key.render.toList := by
  have hdigit : ∀ d < 16, Nat.digitChar d ≠ '+' ∧ (Nat.digitChar d).toLower = Nat.digitChar d := by
    decide
  have hall : ∀ c ∈ key.render.toList, c ≠ '+' ∧ c.toLower = c := by
    intro c hc
    rw [toList_render] at hc
    obtain ⟨d, hd, rfl⟩ := Numeral.exists_of_mem_hex hc
    exact hdigit d hd
  have hplus : ∀ rest, key.render.toList ≠ '+' :: rest := by
    intro rest hrest
    exact (hall '+' (hrest ▸ List.mem_cons_self)).1 rfl
  rw [digitsOf_of_not_plus hplus]
  exact (List.map_congr_left fun c hc => (hall c hc).2).trans (List.map_id _)

/-- A key is read back from the text that it is written as.  The texts of a key are those
that agree with this one up to the case of letters, when a plus sign in front counts as a
zero; and all texts of thirty-two hexadecimal digits are texts of keys, counted so. -/
theorem texts_of_keys (text : String) (key : Key) :
    parse? key.render = some key ∧
      (parse? text = some key ↔ (digitsOf text).map Char.toLower = key.render.toList) ∧
      ((parse? text).isSome ↔
        (digitsOf text).length = 32 ∧ ∀ c ∈ digitsOf text, c.isHexDigit) := by
  refine ⟨parse?_eq_some_iff_toLower.mpr (toLower_digitsOf_render key),
    parse?_eq_some_iff_toLower, ?_⟩
  rw [← isSome_readFrom?_iff, Option.isSome_iff_exists]
  constructor
  · rintro ⟨found, hfound⟩
    obtain ⟨hlength, hread⟩ := parse?_eq_some_iff.mp hfound
    exact ⟨hlength, Option.isSome_of_eq_some hread⟩
  · rintro ⟨hlength, hsome⟩
    obtain ⟨n, hread⟩ := Option.isSome_iff_exists.mp hsome
    have hn : n < 2 ^ 128 := by
      have hbound := (Numeral.readFrom?_sixteen_eq_some_iff.mp hread).1
      rwa [hlength] at hbound
    refine ⟨⟨BitVec.ofNat 128 n⟩, parse?_eq_some_iff.mpr ⟨hlength, ?_⟩⟩
    rw [hread, BitVec.toNat_ofNat, Nat.mod_eq_of_lt hn]

/-- A plus sign and thirty-one digits are read as a key, though they are no text of
thirty-two digits, nor what that key is written as. -/
theorem signed_text_read_as_key :
    let text := "+123456789ABCDEF0123456789abcdef"
    let key : Key := ⟨0x0123456789abcdef0123456789abcdef⟩
    parse? text = some key ∧ ¬(∀ c ∈ text.toList, c.isHexDigit) ∧
      text.toList.map Char.toLower ≠ key.render.toList := by
  intro text key
  refine ⟨by decide +kernel, fun hdigits => ?_, by decide +kernel⟩
  have hsign : '+'.isHexDigit := hdigits '+' (by decide +kernel)
  cases hsign

end Key
end Cache
end LineShell
