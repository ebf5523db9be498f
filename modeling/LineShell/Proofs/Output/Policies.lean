import LineShell.Proofs.Output.Capture
import LineShell.Proofs.Text.Cut

/-!
# The policies read one cut

Each encoding is known by its spellings, and these allow one cut of any bytes.  The strict
policy fails at the first ill-formed piece of the cut.  The others put something in the
place of every ill-formed piece and keep the characters.  So they differ in nothing
where all bytes are well formed, and elsewhere in what stands for the same pieces.
-/

namespace LineShell
namespace Output

open Text

namespace Encoding

/-- An encoding of the characters with numbers below a bound, in one byte each. -/
def oneByte (bound : Nat) : Spelling :=
  fun c => if c.toNat < bound then some [UInt8.ofNat c.toNat] else none

def spelling : Encoding → Spelling
  | utf8 => Utf8.spelling
  | ascii => oneByte 0x80
  | latin1 => oneByte 0x100

theorem oneByte_eq_some {bound : Nat} {c : Char} {spelt : Bytes}
    (hspelt : oneByte bound c = some spelt) :
    c.toNat < bound ∧ spelt = [UInt8.ofNat c.toNat] := by
  unfold oneByte at hspelt
  split_ifs at hspelt with hbound
  exact ⟨hbound, (Option.some.inj hspelt).symm⟩

/-- A byte that is read by itself, as a character if its number is below a bound. -/
def readByte (bound : Nat) (b : UInt8) : Piece :=
  if b.toNat < bound then single b else .bad [b]

theorem illFormed_oneByte
    {bound : Nat} (hbound : bound ≤ 0x100) {b : UInt8} (hb : bound ≤ b.toNat) (rest : Bytes) :
    (oneByte bound).IllFormed [b] rest := by
  constructor
  · exact List.cons_ne_nil b []
  · intro c spelt hspelt hprefix
    obtain ⟨hc, rfl⟩ := oneByte_eq_some hspelt
    have hbyte : UInt8.ofNat c.toNat = b := (List.cons_prefix_cons.mp hprefix).1
    have hsame := congrArg UInt8.toNat hbyte
    rw [Utf8.toNat_byte (by omega)] at hsame
    omega
  · exact Or.inl rfl
  · rintro more - hlonger ⟨c, spelt, hspelt, hmore⟩
    obtain ⟨-, rfl⟩ := oneByte_eq_some hspelt
    have hle := hmore.length_le
    rw [List.length_singleton] at hle hlonger
    omega

theorem readBy_oneByte {bound : Nat} (hbound : bound ≤ 0x100) :
    (oneByte bound).ReadBy fun bytes => bytes.map (readByte bound) := by
  constructor
  · rfl
  · intro c spelt hspelt rest
    obtain ⟨hc, rfl⟩ := oneByte_eq_some hspelt
    have hbyte : (UInt8.ofNat c.toNat).toNat = c.toNat := Utf8.toNat_byte (by omega)
    rw [List.map_append, List.map_singleton, readByte, hbyte, if_pos hc, single, hbyte,
      Char.ofNat_toNat]
    rfl
  · intro bytes hne
    obtain ⟨b, rest, rfl⟩ := List.exists_cons_of_ne_nil hne
    refine ⟨readByte bound b, rest, ?_, rfl, ?_⟩
    · unfold readByte
      split_ifs <;> rfl
    · unfold readByte
      split_ifs with hb
      · show oneByte bound (Char.ofNat b.toNat) = some [b]
        unfold oneByte
        rw [Utf8.toNat_ofNat_byte, if_pos hb, UInt8.ofNat_toNat]
      · exact illFormed_oneByte hbound (by omega) rest

/-- Every encoding cuts bytes as its spellings demand. -/
theorem readBy_split (encoding : Encoding) : encoding.spelling.ReadBy encoding.split := by
  cases encoding with
  | utf8 => exact Utf8.readBy_split
  | ascii =>
    have hsplit : ascii.split = fun bytes => bytes.map (readByte 0x80) := by
      funext bytes
      refine List.map_congr_left fun b _ => ?_
      unfold readByte
      simp only [UInt8.lt_iff_toNat_lt]
      rfl
    rw [hsplit]
    exact readBy_oneByte (by decide)
  | latin1 =>
    have hsplit : latin1.split = fun bytes => bytes.map (readByte 0x100) := by
      funext bytes
      refine List.map_congr_left fun b _ => ?_
      rw [readByte, if_pos b.toNat_lt]
    rw [hsplit]
    exact readBy_oneByte (le_refl 0x100)

end Encoding

/-! ## Cuts without and with ill-formed pieces -/

theorem joinPieces_of_chars
    {pieces : List Piece} {text : List Char} (htext : pieces.mapM Piece.char? = some text)
    (encoding : Encoding) (policy : ErrorPolicy) (offset : Nat) :
    joinPieces encoding policy offset pieces = .ok text := by
  induction pieces generalizing text offset with
  | nil =>
    obtain rfl : text = [] := by simpa using htext.symm
    rfl
  | cons piece rest ih =>
    cases piece with
    | bad bytes => simp [Piece.char?] at htext
    | char c spelt =>
      cases hothers : rest.mapM Piece.char? with
      | none => simp [Piece.char?, hothers] at htext
      | some others =>
        obtain rfl : c :: others = text := by simpa [Piece.char?, hothers] using htext
        rw [joinPieces, ih hothers]
        rfl

/-- The strict policy fails at the first byte of the first ill-formed piece. -/
theorem joinPieces_strict_of_bad
    {front : List Piece} {text : List Char} (hfront : front.mapM Piece.char? = some text)
    (encoding : Encoding) (offset : Nat) (bad : Bytes) (rest : List Piece) :
    joinPieces encoding .strict offset (front ++ .bad bad :: rest) =
      .error ⟨encoding, bad.headD 0, offset + (front.flatMap Piece.bytes).length⟩ := by
  induction front generalizing text offset with
  | nil => rfl
  | cons piece more ih =>
    cases piece with
    | bad bytes => simp [Piece.char?] at hfront
    | char c spelt =>
      cases hothers : more.mapM Piece.char? with
      | none => simp [Piece.char?, hothers] at hfront
      | some others =>
        rw [List.cons_append, joinPieces, ih hothers, List.flatMap_cons, List.length_append,
          Nat.add_assoc]
        rfl

theorem decode_of_chars
    {encoding : Encoding} {bytes : Bytes} {text : List Char}
    (htext : (encoding.split bytes).mapM Piece.char? = some text) (policy : ErrorPolicy) :
    decode encoding policy bytes = .ok (String.ofList text) := by
  rw [decode, decodeChars, joinPieces_of_chars htext]
  rfl

theorem decode_of_write?
    {encoding : Encoding} {bytes : Bytes} {text : String}
    (htext : encoding.spelling.write? text.toList = some bytes) (policy : ErrorPolicy) :
    decode encoding policy bytes = .ok text := by
  rw [decode_of_chars (encoding.readBy_split.write?_eq_some_iff.mp htext),
    String.ofList_toList]

/-- Ill-formed bytes are refused by the strict policy right behind their longest
well-formed beginning. -/
theorem decode_strict_of_not_wellFormed
    {encoding : Encoding} {bytes : Bytes} (hbad : ¬ encoding.spelling.WellFormed bytes) :
    ∃ offset byte, decode encoding .strict bytes = .error ⟨encoding, byte, offset⟩ ∧
      bytes[offset]? = some byte ∧ encoding.spelling.WellFormed (bytes.take offset) ∧
      ∀ start, start <+: bytes → encoding.spelling.WellFormed start →
        start.length ≤ offset := by
  have hread := encoding.readBy_split
  have hnone : (encoding.split bytes).mapM Piece.char? = none := by
    rw [Option.eq_none_iff_forall_ne_some]
    intro text htext
    exact hbad ⟨text, hread.write?_eq_some_iff.mpr htext⟩
  -- The fault is told of the first ill-formed piece; what stands before it is well formed.
  obtain ⟨front, text, bad, rest, hsplit, hfront⟩ := Piece.exists_of_mapM_char?_eq_none hnone
  have hcuts := hread.cuts_split bytes
  have hbytes : front.flatMap Piece.bytes ++ (bad ++ rest.flatMap Piece.bytes) = bytes := by
    rw [← hcuts.flatMap_bytes, hsplit, List.flatMap_append, List.flatMap_cons]
    rfl
  have hne : bad ≠ [] := (hsplit ▸ hcuts).ne_nil_of_bad
  obtain ⟨byte, more, rfl⟩ := List.exists_cons_of_ne_nil hne
  refine ⟨(front.flatMap Piece.bytes).length, byte, ?_, ?_, ?_, ?_⟩
  · rw [decode, decodeChars, hsplit, joinPieces_strict_of_bad hfront, Nat.zero_add]
    rfl
  · rw [← hbytes, List.getElem?_append_right (le_refl _), Nat.sub_self]
    rfl
  · rw [← hbytes, List.take_left]
    exact hread.wellFormed_front hsplit hfront
  · intro start hstart hwell
    exact hread.length_le_of_wellFormed hsplit hstart hwell

theorem length_of_oneByte
    {encoding : Encoding} (hone : encoding ≠ .utf8) {bytes bad : Bytes}
    (hbad : .bad bad ∈ encoding.split bytes) : bad.length = 1 := by
  cases encoding with
  | utf8 => exact absurd rfl hone
  | ascii =>
    obtain ⟨b, -, hb⟩ := List.mem_map.mp hbad
    split_ifs at hb
    · cases hb
    · obtain rfl : [b] = bad := Piece.bad.inj hb
      rfl
  | latin1 =>
    obtain ⟨b, -, hb⟩ := List.mem_map.mp hbad
    cases hb

/-! ## What stands for ill-formed bytes -/

/-- The text of a piece, with something in the place of ill-formed bytes. -/
def textWith (instead : Bytes → List Char) : Piece → List Char
  | .char c _ => [c]
  | .bad bytes => instead bytes

theorem flatMap_textWith_nil (pieces : List Piece) :
    pieces.flatMap (textWith fun _ => []) = pieces.filterMap Piece.char? := by
  induction pieces with
  | nil => rfl
  | cons piece rest ih =>
    rw [List.flatMap_cons, ih]
    cases piece <;> rfl

theorem escape_eq (b : UInt8) :
    ErrorPolicy.escape b =
      ['\\', 'x', Nat.digitChar (b.toNat / 16), Nat.digitChar (b.toNat % 16)] := by
  have hhigh : b.toNat / 16 % 16 = b.toNat / 16 := by
    have hb := b.toNat_lt
    omega
  simp only [ErrorPolicy.escape, Numeral.hex, hhigh, List.nil_append, List.singleton_append]

theorem shown_eq {policy : ErrorPolicy} {instead : Bytes → List Char}
    (hpolicy : ∀ bytes, policy.substitute? bytes = some (instead bytes)) :
    policy.shown = textWith instead := by
  funext piece
  cases piece with
  | char c bytes => rfl
  | bad bytes => rw [ErrorPolicy.shown, hpolicy, Option.getD_some, textWith]

theorem decode_of_substitute?
    {policy : ErrorPolicy} {instead : Bytes → List Char}
    (hpolicy : ∀ bytes, policy.substitute? bytes = some (instead bytes))
    (encoding : Encoding) (bytes : Bytes) :
    decode encoding policy bytes =
      .ok (String.ofList ((encoding.split bytes).flatMap (textWith instead))) := by
  have hne : policy ≠ .strict := by
    rintro rfl
    cases hpolicy []
  rw [decode_of_ne_strict hne, readText, readChars, shown_eq hpolicy]

/-- There is one cut of the bytes into characters that the encoding spells and maximal
ill-formed pieces.  If all bytes are well formed, every policy gives the text that they
spell; else the strict one fails, right behind the longest well-formed beginning.  The
other policies never fail and keep the characters in their order: one leaves out the
ill-formed bytes and no others, one puts an escape for each of them, and one a replacement
character for each ill-formed piece, which is a single byte outside of UTF-8. -/
theorem policies_read_one_cut (encoding : Encoding) (bytes : Bytes) :
    let spelling := encoding.spelling
    ∃ pieces : List Piece,
      (∀ cut, spelling.Cuts bytes cut ↔ cut = pieces) ∧
      (∀ text, decode encoding .strict bytes = .ok text ↔
        spelling.write? text.toList = some bytes) ∧
      (∀ text, spelling.write? text.toList = some bytes →
        ∀ policy, decode encoding policy bytes = .ok text) ∧
      (¬ spelling.WellFormed bytes →
        ∃ offset byte, decode encoding .strict bytes = .error ⟨encoding, byte, offset⟩ ∧
          bytes[offset]? = some byte ∧ spelling.WellFormed (bytes.take offset) ∧
          ∀ start, start <+: bytes → spelling.WellFormed start → start.length ≤ offset) ∧
      (∃ text, decode encoding .ignore bytes = .ok text ∧
        text.toList = pieces.filterMap Piece.char? ∧
        spelling.write? text.toList = some (pieces.flatMap Piece.kept)) ∧
      decode encoding .backslashReplace bytes =
        .ok (String.ofList (pieces.flatMap (textWith fun bad => bad.flatMap fun b =>
          ['\\', 'x', Nat.digitChar (b.toNat / 16), Nat.digitChar (b.toNat % 16)]))) ∧
      decode encoding .replace bytes =
        .ok (String.ofList (pieces.flatMap (textWith fun _ => ['\uFFFD']))) ∧
      (encoding ≠ .utf8 → ∀ bad, .bad bad ∈ pieces → bad.length = 1) := by
  intro spelling
  have hread : spelling.ReadBy encoding.split := encoding.readBy_split
  have hcuts := hread.cuts_split bytes
  refine ⟨encoding.split bytes, fun cut => hread.cuts_iff, ?_, ?_, ?_, ?_, ?_, ?_, ?_⟩
  · intro text
    constructor
    · intro hstrict
      by_contra hother
      have hbad : ¬ spelling.WellFormed bytes := by
        rintro ⟨spelt, hspelt⟩
        have hdecode : decode encoding .strict bytes = .ok (String.ofList spelt) :=
          decode_of_write? (by rwa [String.toList_ofList]) .strict
        rw [hstrict] at hdecode
        obtain rfl : text = String.ofList spelt := Except.ok.inj hdecode
        exact hother (by rwa [String.toList_ofList])
      obtain ⟨offset, byte, hfault, -⟩ := decode_strict_of_not_wellFormed hbad
      rw [hstrict] at hfault
      cases hfault
    · intro htext
      exact decode_of_write? htext .strict
  · intro text htext policy
    exact decode_of_write? htext policy
  · exact decode_strict_of_not_wellFormed
  · have hignore : ∀ bad, ErrorPolicy.ignore.substitute? bad = some [] := fun _ => rfl
    refine ⟨_, decode_of_substitute? hignore encoding bytes, ?_, ?_⟩
    · rw [String.toList_ofList, flatMap_textWith_nil]
    · rw [String.toList_ofList, flatMap_textWith_nil]
      exact hcuts.spells.write?_eq
  · have hescape : ∀ bad, ErrorPolicy.backslashReplace.substitute? bad = some (bad.flatMap _) :=
      fun bad => congrArg (fun escape => some (bad.flatMap escape)) (funext escape_eq)
    exact decode_of_substitute? hescape encoding bytes
  · exact decode_of_substitute? (fun _ => rfl) encoding bytes
  · intro hone bad hbad
    exact length_of_oneByte hone hbad

/-- A character that is cut off is one piece in UTF-8, where the strict policy stops before
it, and as many pieces as bytes in ASCII. -/
theorem cut_off_character_read :
    let bytes : Bytes := [0x78, 0xE2, 0x82]
    (decode .utf8 .strict bytes = .error ⟨.utf8, 0xE2, 1⟩ ∧
      (∀ start, start <+: bytes → Encoding.utf8.spelling.WellFormed start →
        start.length ≤ 1) ∧
      decode .utf8 .replace bytes = .ok "x\uFFFD") ∧
      decode .ascii .replace bytes = .ok "x\uFFFD\uFFFD" ∧
      ∀ cut, Encoding.ascii.spelling.Cuts bytes cut → ∀ bad, .bad bad ∈ cut →
        bad.length = 1 := by
  intro bytes
  constructor
  · have hfault : decode .utf8 .strict bytes = .error ⟨.utf8, 0xE2, 1⟩ := by decide +kernel
    obtain ⟨_, -, hstrict, -, hill, -⟩ := policies_read_one_cut .utf8 bytes
    have hbad : ¬ Encoding.utf8.spelling.WellFormed bytes := by
      rintro ⟨text, htext⟩
      have hdecode := (hstrict (String.ofList text)).mpr (by rwa [String.toList_ofList])
      rw [hfault] at hdecode
      cases hdecode
    obtain ⟨offset, byte, hstopped, -, -, hlongest⟩ := hill hbad
    obtain ⟨-, rfl⟩ : 0xE2 = byte ∧ 1 = offset := by
      simpa using hfault.symm.trans hstopped
    exact ⟨hfault, hlongest, by decide +kernel⟩
  · obtain ⟨pieces, hcuts, -, -, -, -, -, -, hsingle⟩ := policies_read_one_cut .ascii bytes
    refine ⟨by decide +kernel, ?_⟩
    intro cut hcut bad hmem
    obtain rfl : cut = pieces := (hcuts cut).mp hcut
    exact hsingle (by decide) bad hmem

/-- A surrogate is three ill-formed pieces of a byte each, and a character that is cut off
behind other characters is one. -/
example :
    decode .utf8 .replace [0x78, 0xED, 0xA0, 0x80, 0x79, 0xF0, 0x9F, 0x98] =
      .ok "x\uFFFD\uFFFD\uFFFDy\uFFFD" := by
  decide +kernel

end Output
end LineShell
