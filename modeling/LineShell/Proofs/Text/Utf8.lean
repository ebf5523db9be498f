import LineShell.Text.Utf8
import Mathlib.Tactic

/-!
# Written text reads back

The reader of UTF-8 is a machine over single bytes.  On the bytes of one character
it goes from between characters to between characters and settles that character,
whatever follows.  Hence it cuts written text into its characters.  Conversely, a
character that it settles was spelt in the one way in which it is written, so bytes
that read as a text are the bytes of that text.
-/

namespace LineShell
namespace Text
namespace Utf8

/-! ## Single bytes -/

theorem toNat_byte {b : Nat} (hb : b < 256) : (UInt8.ofNat b).toNat = b := by
  rw [UInt8.toNat_ofNat', Nat.mod_eq_of_lt hb]

theorem begin_eq (b : UInt8) :
    begin b =
      if b.toNat ≤ 0x7F then ([.char (Char.ofNat b.toNat) [b]], none)
      else if 0xC2 ≤ b.toNat ∧ b.toNat ≤ 0xDF then
        ([], some ⟨[b], b.toNat - 0xC0, 1, 0x80, 0xBF⟩)
      else if b.toNat = 0xE0 then ([], some ⟨[b], 0, 2, 0xA0, 0xBF⟩)
      else if b.toNat = 0xED then ([], some ⟨[b], 0xD, 2, 0x80, 0x9F⟩)
      else if 0xE1 ≤ b.toNat ∧ b.toNat ≤ 0xEF then
        ([], some ⟨[b], b.toNat - 0xE0, 2, 0x80, 0xBF⟩)
      else if b.toNat = 0xF0 then ([], some ⟨[b], 0, 3, 0x90, 0xBF⟩)
      else if 0xF1 ≤ b.toNat ∧ b.toNat ≤ 0xF3 then
        ([], some ⟨[b], b.toNat - 0xF0, 3, 0x80, 0xBF⟩)
      else if b.toNat = 0xF4 then ([], some ⟨[b], 4, 3, 0x80, 0x8F⟩)
      else ([.bad [b]], none) := by
  unfold begin
  simp only [UInt8.le_iff_toNat_le, ← UInt8.toNat_inj, UInt8.reduceToNat]

/-- What the first of several bytes of a character leaves open: some of its bits and
a range for the next byte that keeps other spellings of the character out. -/
theorem splitFrom_first
    {b : Nat} (rest : Bytes) (hlow : 0xC2 ≤ b) (hhigh : b ≤ 0xF4) :
    splitFrom none (UInt8.ofNat b :: rest) =
      splitFrom
        (some (if b ≤ 0xDF then ⟨[UInt8.ofNat b], b - 0xC0, 1, 0x80, 0xBF⟩
          else if b ≤ 0xEF then
            ⟨[UInt8.ofNat b], b - 0xE0, 2, if b = 0xE0 then 0xA0 else 0x80,
              if b = 0xED then 0x9F else 0xBF⟩
          else
            ⟨[UInt8.ofNat b], b - 0xF0, 3, if b = 0xF0 then 0x90 else 0x80,
              if b = 0xF4 then 0x8F else 0xBF⟩)) rest := by
  have hbyte : (UInt8.ofNat b).toNat = b := toNat_byte (by omega)
  rw [splitFrom, step, begin_eq, hbyte, if_neg (by omega)]
  by_cases htwo : b ≤ 0xDF
  · simp [hlow, htwo]
  · rw [if_neg (by omega), if_neg htwo]
    by_cases hthree : b ≤ 0xEF
    · rw [if_pos hthree]
      by_cases hfirst : b = 0xE0
      · subst hfirst
        rfl
      · by_cases hsurrogate : b = 0xED
        · subst hsurrogate
          rfl
        · rw [if_neg hfirst, if_neg hsurrogate, if_pos (by omega), if_neg hfirst,
            if_neg hsurrogate]
          rfl
    · rw [if_neg hthree, if_neg (by omega), if_neg (by omega), if_neg (by omega)]
      by_cases hfirst : b = 0xF0
      · subst hfirst
        rfl
      · by_cases hlast : b = 0xF4
        · subst hlast
          rfl
        · rw [if_neg hfirst, if_pos (by omega), if_neg hfirst, if_neg hlast]
          rfl

/-- A byte in the range that an open character allows adds its six bits. -/
theorem splitFrom_continue
    {part : Begun} {b : Nat} (rest : Bytes) (hb : b < 64)
    (hlow : part.low.toNat ≤ b + 0x80) (hhigh : b + 0x80 ≤ part.high.toNat) :
    splitFrom (some part) (UInt8.ofNat (b + 0x80) :: rest) =
      if part.owed ≤ 1 then
        .char (Char.ofNat (part.value * 64 + b)) (part.taken ++ [UInt8.ofNat (b + 0x80)]) ::
          splitFrom none rest
      else
        splitFrom (some ⟨part.taken ++ [UInt8.ofNat (b + 0x80)], part.value * 64 + b,
          part.owed - 1, 0x80, 0xBF⟩) rest := by
  have hbyte : (UInt8.ofNat (b + 0x80)).toNat = b + 0x80 := toNat_byte (by omega)
  have hrange : part.low ≤ UInt8.ofNat (b + 0x80) ∧ UInt8.ofNat (b + 0x80) ≤ part.high := by
    rw [UInt8.le_iff_toNat_le, UInt8.le_iff_toNat_le, hbyte]
    exact ⟨hlow, hhigh⟩
  rw [splitFrom]
  simp only [step, hrange, and_self, if_true, hbyte, Nat.add_sub_cancel]
  by_cases howed : part.owed ≤ 1
  · simp [howed]
  · simp [howed]

/-! ## Single characters -/

theorem splitFrom_one {v : Nat} (rest : Bytes) (hv : v ≤ 0x7F) :
    splitFrom none (UInt8.ofNat v :: rest) =
      .char (Char.ofNat v) [UInt8.ofNat v] :: splitFrom none rest := by
  have hbyte : (UInt8.ofNat v).toNat = v := toNat_byte (by omega)
  rw [splitFrom, step, begin_eq, hbyte, if_pos hv]
  rfl

theorem splitFrom_two
    {v : Nat} (rest : Bytes) (hlow : 0x7F < v) (hhigh : v ≤ 0x7FF) :
    let bytes := [UInt8.ofNat (v / 64 % 0x20 + 0xC0), UInt8.ofNat (v % 0x40 + 0x80)]
    splitFrom none (bytes ++ rest) = .char (Char.ofNat v) bytes :: splitFrom none rest := by
  intro bytes
  have hvalue : (v / 64 % 0x20 + 0xC0 - 0xC0) * 64 + v % 0x40 = v := by omega
  dsimp only [bytes, List.cons_append, List.nil_append]
  rw [splitFrom_first _ (by omega) (by omega), if_pos (by omega),
    splitFrom_continue _ (by omega) (by simp) (by simp; omega)]
  simp only [le_refl, if_true, hvalue]
  rfl

theorem splitFrom_three
    {v : Nat} (rest : Bytes) (hlow : 0x7FF < v) (hhigh : v ≤ 0xFFFF)
    (hscalar : v < 0xD800 ∨ 0xDFFF < v) :
    let bytes := [UInt8.ofNat (v / 4096 % 0x10 + 0xE0),
      UInt8.ofNat (v / 64 % 0x40 + 0x80), UInt8.ofNat (v % 0x40 + 0x80)]
    splitFrom none (bytes ++ rest) = .char (Char.ofNat v) bytes :: splitFrom none rest := by
  intro bytes
  have hvalue :
      ((v / 4096 % 0x10 + 0xE0 - 0xE0) * 64 + v / 64 % 0x40) * 64 + v % 0x40 = v := by
    omega
  dsimp only [bytes, List.cons_append, List.nil_append]
  rw [splitFrom_first _ (by omega) (by omega), if_neg (by omega),
    if_pos (by omega), splitFrom_continue _ (by omega)
      (by dsimp only; split <;> simp; omega) (by dsimp only; split <;> simp <;> omega),
    if_neg (by simp),
    splitFrom_continue _ (by omega) (by simp) (by simp; omega)]
  simp only [Nat.add_one_sub_one, le_refl, if_true, hvalue]
  rfl

theorem splitFrom_four
    {v : Nat} (rest : Bytes) (hlow : 0xFFFF < v) (hhigh : v ≤ 0x10FFFF) :
    let bytes := [UInt8.ofNat (v / 262144 % 0x08 + 0xF0),
      UInt8.ofNat (v / 4096 % 0x40 + 0x80), UInt8.ofNat (v / 64 % 0x40 + 0x80),
      UInt8.ofNat (v % 0x40 + 0x80)]
    splitFrom none (bytes ++ rest) = .char (Char.ofNat v) bytes :: splitFrom none rest := by
  intro bytes
  have hvalue :
      (((v / 262144 % 0x08 + 0xF0 - 0xF0) * 64 + v / 4096 % 0x40) * 64 + v / 64 % 0x40) *
        64 + v % 0x40 = v := by
    omega
  dsimp only [bytes, List.cons_append, List.nil_append]
  rw [splitFrom_first _ (by omega) (by omega), if_neg (by omega),
    if_neg (by omega), splitFrom_continue _ (by omega)
      (by dsimp only; split <;> simp; omega) (by dsimp only; split <;> simp <;> omega),
    if_neg (by simp),
    splitFrom_continue _ (by omega) (by simp) (by simp; omega), if_neg (by simp),
    splitFrom_continue _ (by omega) (by simp) (by simp; omega)]
  simp only [Nat.reduceSub, le_refl, if_true, hvalue]
  rfl

/-- The bytes of a character are cut off as that character, whatever follows. -/
theorem splitFrom_encodeChar (c : Char) (rest : Bytes) :
    splitFrom none (String.utf8EncodeChar c ++ rest) =
      .char c (String.utf8EncodeChar c) :: splitFrom none rest := by
  have hvalid : c.val.toNat < 0xD800 ∨ 0xDFFF < c.val.toNat ∧ c.val.toNat < 0x110000 :=
    c.valid
  have hchar : Char.ofNat c.val.toNat = c := Char.ofNat_toNat c
  unfold String.utf8EncodeChar
  dsimp only
  generalize c.val.toNat = v at hvalid hchar
  subst hchar
  split
  · rename_i hone
    exact splitFrom_one rest hone
  · split
    · rename_i hone htwo
      exact splitFrom_two rest (by omega) htwo
    · split
      · rename_i hone htwo hthree
        exact splitFrom_three rest (by omega) hthree (by omega)
      · rename_i hone htwo hthree
        exact splitFrom_four rest (by omega) (by omega)

/-! ## The bytes of a character -/

theorem encodeChar_ne_nil (c : Char) : String.utf8EncodeChar c ≠ [] := by
  intro hnil
  have hlength := String.length_utf8EncodeChar c
  rw [hnil] at hlength
  exact absurd hlength.symm (Nat.ne_of_gt c.utf8Size_pos)

theorem encodeChar_of_le {c : Char} (hc : c.toNat ≤ 0x7F) :
    String.utf8EncodeChar c = [UInt8.ofNat c.toNat] := by
  have hval : c.val.toNat ≤ 0x7F := hc
  unfold String.utf8EncodeChar
  exact if_pos hval

/-- No character begins with a byte that could go on with another one. -/
theorem exists_encodeChar_eq_cons (c : Char) :
    ∃ b rest, String.utf8EncodeChar c = b :: rest ∧ (b.toNat ≤ 0x7F ∨ 0xC0 ≤ b.toNat) := by
  unfold String.utf8EncodeChar
  dsimp only
  split
  · exact ⟨_, _, rfl, Or.inl (by rw [toNat_byte (by omega)]; assumption)⟩
  · split
    · exact ⟨_, _, rfl, Or.inr (by rw [toNat_byte (by omega)]; omega)⟩
    · split
      · exact ⟨_, _, rfl, Or.inr (by rw [toNat_byte (by omega)]; omega)⟩
      · exact ⟨_, _, rfl, Or.inr (by rw [toNat_byte (by omega)]; omega)⟩

/-- Past the first 128 characters, no byte is one of theirs. -/
theorem le_of_mem_encodeChar
    {c : Char} (hc : 0x7F < c.toNat) {b : UInt8} (hb : b ∈ String.utf8EncodeChar c) :
    0x80 ≤ b.toNat := by
  have hval : ¬ c.val.toNat ≤ 0x7F := Nat.not_le.mpr hc
  unfold String.utf8EncodeChar at hb
  rw [if_neg hval] at hb
  split at hb
  · simp only [List.mem_cons, List.not_mem_nil, or_false] at hb
    rcases hb with rfl | rfl <;> rw [toNat_byte (by omega)] <;> omega
  · split at hb
    · simp only [List.mem_cons, List.not_mem_nil, or_false] at hb
      rcases hb with rfl | rfl | rfl <;> rw [toNat_byte (by omega)] <;> omega
    · simp only [List.mem_cons, List.not_mem_nil, or_false] at hb
      rcases hb with rfl | rfl | rfl | rfl <;> rw [toNat_byte (by omega)] <;> omega

/-- An ASCII byte is all there is of its character. -/
theorem encodeChar_of_mem
    {c : Char} {b : UInt8} (hb : b.toNat ≤ 0x7F) (hmem : b ∈ String.utf8EncodeChar c) :
    c = Char.ofNat b.toNat ∧ String.utf8EncodeChar c = [b] := by
  have hc : c.toNat ≤ 0x7F := by
    by_contra hhigh
    have hlarge := le_of_mem_encodeChar (Nat.not_le.mp hhigh) hmem
    omega
  rw [encodeChar_of_le hc, List.mem_singleton] at hmem
  exact ⟨by rw [hmem, toNat_byte (by omega), Char.ofNat_toNat],
    by rw [encodeChar_of_le hc, hmem]⟩

/-! ## Texts -/

theorem split_encodeChars (text : List Char) :
    split (encodeChars text) = text.map fun c => .char c (String.utf8EncodeChar c) := by
  unfold split encodeChars
  induction text with
  | nil => rfl
  | cons c rest ih => rw [List.flatMap_cons, splitFrom_encodeChar, ih, List.map_cons]

theorem split_encodeChars_append (text : List Char) (rest : Bytes) :
    split (encodeChars text ++ rest) = split (encodeChars text) ++ split rest := by
  rw [split_encodeChars]
  unfold split encodeChars
  induction text with
  | nil => rfl
  | cons c others ih =>
    rw [List.flatMap_cons, List.append_assoc, splitFrom_encodeChar, ih, List.map_cons,
      List.cons_append]

theorem encodeChars_append_singleton (front : List Char) (c : Char) :
    encodeChars (front ++ [c]) = encodeChars front ++ String.utf8EncodeChar c := by
  simp [encodeChars]

theorem length_encodeChars_of_ascii {text : List Char} (htext : ∀ c ∈ text, c.toNat ≤ 0x7F) :
    (encodeChars text).length = text.length := by
  induction text with
  | nil => rfl
  | cons c rest ih =>
    obtain ⟨hc, hrest⟩ := List.forall_mem_cons.mp htext
    have hlength := ih hrest
    unfold encodeChars at hlength ⊢
    rw [List.flatMap_cons, List.length_append, hlength, encodeChar_of_le hc,
      List.length_singleton, List.length_cons, Nat.add_comm]

/-- A text whose last byte is an ASCII one ends with the character of that byte. -/
theorem exists_of_reverse_encodeChars_eq_cons
    {text : List Char} {b : UInt8} {rest : Bytes}
    (htext : (encodeChars text).reverse = b :: rest) (hb : b.toNat ≤ 0x7F) :
    ∃ front, text = front ++ [Char.ofNat b.toNat] ∧ (encodeChars front).reverse = rest := by
  rcases List.eq_nil_or_concat text with rfl | ⟨front, c, rfl⟩
  · cases htext
  rw [List.concat_eq_append] at htext ⊢
  rw [encodeChars_append_singleton, List.reverse_append] at htext
  obtain ⟨last, more, hlast⟩ := List.exists_cons_of_ne_nil
    (List.reverse_eq_nil_iff.not.mpr (encodeChar_ne_nil c))
  have hmem : b ∈ String.utf8EncodeChar c := by
    rw [hlast, List.cons_append] at htext
    rw [← List.mem_reverse, hlast, (List.cons.inj htext).1]
    exact List.mem_cons_self
  obtain ⟨hc, hone⟩ := encodeChar_of_mem hb hmem
  rw [hone] at htext
  exact ⟨front, by rw [hc], (List.cons.inj htext).2⟩

/-- Where an ASCII byte stands, a character stands. -/
theorem exists_of_encodeChars_eq_append
    {text : List Char} {front back : Bytes} {b : UInt8} (hb : b.toNat ≤ 0x7F)
    (htext : encodeChars text = front ++ b :: back) :
    ∃ before c after, text = before ++ c :: after ∧ encodeChars before = front ∧
      encodeChars (before ++ [c]) = front ++ [b] := by
  induction text generalizing front with
  | nil => simp [encodeChars] at htext
  | cons c rest ih =>
    rw [encodeChars, List.flatMap_cons, List.append_eq_append_iff] at htext
    have hlater : ∀ more, encodeChars rest = more ++ b :: back →
        ∃ before d after, c :: rest = before ++ d :: after ∧
          encodeChars before = String.utf8EncodeChar c ++ more ∧
          encodeChars (before ++ [d]) = String.utf8EncodeChar c ++ more ++ [b] := by
      intro more hmore
      obtain ⟨before, d, after, rfl, hbefore, hd⟩ := ih hmore
      refine ⟨c :: before, d, after, rfl, congrArg (_ ++ ·) hbefore, ?_⟩
      rw [List.append_assoc]
      exact congrArg (_ ++ ·) hd
    rcases htext with ⟨more, rfl, hmore⟩ | ⟨tail, hchar, hmore⟩
    · exact hlater more hmore
    · cases tail with
      | nil =>
        rw [List.append_nil] at hchar
        subst hchar
        simpa using hlater [] hmore.symm
      | cons d tail =>
        obtain ⟨rfl, -⟩ := List.cons.inj hmore
        obtain ⟨-, hsingle⟩ := encodeChar_of_mem hb (by rw [hchar]; simp)
        obtain rfl : front = [] := by
          rw [hchar] at hsingle
          cases front with
          | nil => rfl
          | cons e more => simp at hsingle
        exact ⟨[], c, rest, rfl, rfl, by simp [encodeChars, hsingle]⟩

/-- An ASCII byte among the last bytes of a text is a character among its last ones. -/
theorem mem_take_reverse_of_mem_encodeChars
    {text : List Char} {n : Nat} {b : UInt8} (hb : b.toNat ≤ 0x7F)
    (hmem : b ∈ (encodeChars text).reverse.take n) :
    Char.ofNat b.toNat ∈ text.reverse.take n := by
  induction text using List.reverseRecOn generalizing n with
  | nil => simp [encodeChars] at hmem
  | append_singleton front c ih =>
    obtain _ | n := n
    · simp at hmem
    rw [encodeChars_append_singleton, List.reverse_append, List.take_append,
      List.mem_append] at hmem
    rw [List.reverse_append, List.reverse_singleton, List.singleton_append,
      List.take_succ_cons, List.mem_cons]
    rcases hmem with hlast | hfront
    · left
      exact (encodeChar_of_mem hb (List.mem_reverse.mp (List.mem_of_mem_take hlast))).1.symm
    · right
      have hlength : 0 < (String.utf8EncodeChar c).reverse.length := by
        rw [List.length_reverse]
        exact List.length_pos_of_ne_nil (encodeChar_ne_nil c)
      exact ih ((List.take_subset_take_left _ (by omega)) hfront)

theorem decodeChars?_encodeChars (text : List Char) :
    decodeChars? (encodeChars text) = some text := by
  rw [decodeChars?, split_encodeChars]
  induction text with
  | nil => rfl
  | cons c rest ih => simp [Piece.char?, ih]

theorem encodeChars_injective : Function.Injective encodeChars := by
  intro text other hbytes
  have hdecoded := congrArg decodeChars? hbytes
  rwa [decodeChars?_encodeChars, decodeChars?_encodeChars, Option.some_inj] at hdecoded

theorem decode?_encode (text : String) : decode? (encode text) = some text := by
  rw [decode?, encode, decodeChars?_encodeChars, Option.map_some, String.ofList_toList]

/-! ## What reads as a character is written so -/

theorem val_ofNat {v : Nat} (hv : v < 0xD800 ∨ 0xDFFF < v ∧ v < 0x110000) :
    (Char.ofNat v).val.toNat = v := by
  have hvalid : v.isValidChar := hv
  unfold Char.ofNat
  rw [dif_pos hvalid]
  rfl

theorem toNat_ofNat_byte (b : UInt8) : (Char.ofNat b.toNat).toNat = b.toNat := by
  have hbyte := b.toNat_lt
  exact val_ofNat (Or.inl (by omega))

/-- An open character whose bytes so far begin the spelling of every character that
it can still become. -/
structure Begun.Opens (part : Begun) : Prop where
  owes : 1 ≤ part.owed
  low_ge : 0x80 ≤ part.low.toNat
  high_le : part.high.toNat ≤ 0xBF
  spelt : ∀ next rest, rest.length + 1 = part.owed → (∀ d ∈ rest, d < 64) →
    part.low.toNat ≤ next + 0x80 → next + 0x80 ≤ part.high.toNat →
      String.utf8EncodeChar
          (Char.ofNat (rest.foldl (fun v d => v * 64 + d) (part.value * 64 + next))) =
        part.taken ++ (next :: rest).map fun d => UInt8.ofNat (d + 0x80)

theorem encodeChar_two
    {b d : Nat} (hb : 0xC2 ≤ b ∧ b ≤ 0xDF) (hd : d < 64) :
    String.utf8EncodeChar (Char.ofNat ((b - 0xC0) * 64 + d)) =
      [UInt8.ofNat b, UInt8.ofNat (d + 0x80)] := by
  have hval := val_ofNat (v := (b - 0xC0) * 64 + d) (by omega)
  have hfirst : ((b - 0xC0) * 64 + d) / 64 % 32 + 192 = b := by omega
  have hlast : ((b - 0xC0) * 64 + d) % 64 = d := by omega
  unfold String.utf8EncodeChar
  simp only [hval]
  rw [if_neg (by omega), if_pos (by omega), hfirst, hlast]

theorem encodeChar_three
    {b d e : Nat} (hb : 0xE0 ≤ b ∧ b ≤ 0xEF) (hd : d < 64) (he : e < 64)
    (hlong : b = 0xE0 → 0x20 ≤ d) (hscalar : b = 0xED → d < 0x20) :
    String.utf8EncodeChar (Char.ofNat (((b - 0xE0) * 64 + d) * 64 + e)) =
      [UInt8.ofNat b, UInt8.ofNat (d + 0x80), UInt8.ofNat (e + 0x80)] := by
  have hval := val_ofNat (v := ((b - 0xE0) * 64 + d) * 64 + e) (by omega)
  have hfirst : (((b - 0xE0) * 64 + d) * 64 + e) / 4096 % 16 + 224 = b := by omega
  have hmiddle : (((b - 0xE0) * 64 + d) * 64 + e) / 64 % 64 = d := by omega
  have hlast : (((b - 0xE0) * 64 + d) * 64 + e) % 64 = e := by omega
  unfold String.utf8EncodeChar
  simp only [hval]
  rw [if_neg (by omega), if_neg (by omega), if_pos (by omega), hfirst, hmiddle, hlast]

theorem encodeChar_four
    {b d e f : Nat} (hb : 0xF0 ≤ b ∧ b ≤ 0xF4) (hd : d < 64) (he : e < 64) (hf : f < 64)
    (hlong : b = 0xF0 → 0x10 ≤ d) (hscalar : b = 0xF4 → d < 0x10) :
    String.utf8EncodeChar (Char.ofNat ((((b - 0xF0) * 64 + d) * 64 + e) * 64 + f)) =
      [UInt8.ofNat b, UInt8.ofNat (d + 0x80), UInt8.ofNat (e + 0x80),
        UInt8.ofNat (f + 0x80)] := by
  have hval := val_ofNat (v := (((b - 0xF0) * 64 + d) * 64 + e) * 64 + f) (by omega)
  have hfirst : ((((b - 0xF0) * 64 + d) * 64 + e) * 64 + f) / 262144 % 8 + 240 = b := by
    omega
  have hsecond : ((((b - 0xF0) * 64 + d) * 64 + e) * 64 + f) / 4096 % 64 = d := by omega
  have hthird : ((((b - 0xF0) * 64 + d) * 64 + e) * 64 + f) / 64 % 64 = e := by omega
  have hlast : ((((b - 0xF0) * 64 + d) * 64 + e) * 64 + f) % 64 = f := by omega
  unfold String.utf8EncodeChar
  simp only [hval]
  rw [if_neg (by omega), if_neg (by omega), if_neg (by omega), hfirst, hsecond, hthird, hlast]

theorem opens_two {b : UInt8} (hb : 0xC2 ≤ b.toNat ∧ b.toNat ≤ 0xDF) :
    Begun.Opens ⟨[b], b.toNat - 0xC0, 1, 0x80, 0xBF⟩ := by
  refine ⟨le_refl 1, le_refl 0x80, le_refl 0xBF, ?_⟩
  intro next rest hlength _ _ hnext
  have hnil : rest = [] := List.eq_nil_of_length_eq_zero (by simpa using hlength)
  subst hnil
  have hlast : next + 0x80 ≤ 0xBF := hnext
  have hchar := encodeChar_two hb (d := next) (by omega)
  simpa [UInt8.ofNat_toNat] using hchar

theorem opens_three
    {b low high : UInt8} {value : Nat} (hb : 0xE0 ≤ b.toNat ∧ b.toNat ≤ 0xEF)
    (hvalue : value = b.toNat - 0xE0)
    (hlow : 0x80 ≤ low.toNat ∧ (b.toNat = 0xE0 → 0xA0 ≤ low.toNat))
    (hhigh : high.toNat ≤ 0xBF ∧ (b.toNat = 0xED → high.toNat ≤ 0x9F)) :
    Begun.Opens ⟨[b], value, 2, low, high⟩ := by
  refine ⟨Nat.le_succ 1, hlow.1, hhigh.1, ?_⟩
  intro next rest hlength hrest hge hle
  obtain ⟨e, rfl⟩ : ∃ e, rest = [e] := List.length_eq_one_iff.mp (by simpa using hlength)
  have he : e < 64 := hrest e (by simp)
  dsimp only at hge hle
  have hchar := encodeChar_three hb (d := next) (e := e) (by omega) he (by omega) (by omega)
  rw [← hvalue] at hchar
  simpa [UInt8.ofNat_toNat] using hchar

theorem opens_four
    {b low high : UInt8} {value : Nat} (hb : 0xF0 ≤ b.toNat ∧ b.toNat ≤ 0xF4)
    (hvalue : value = b.toNat - 0xF0)
    (hlow : 0x80 ≤ low.toNat ∧ (b.toNat = 0xF0 → 0x90 ≤ low.toNat))
    (hhigh : high.toNat ≤ 0xBF ∧ (b.toNat = 0xF4 → high.toNat ≤ 0x8F)) :
    Begun.Opens ⟨[b], value, 3, low, high⟩ := by
  refine ⟨Nat.le_add_left 1 2, hlow.1, hhigh.1, ?_⟩
  intro next rest hlength hrest hge hle
  obtain ⟨e, f, rfl⟩ : ∃ e f, rest = [e, f] :=
    List.length_eq_two.mp (by simpa using hlength)
  have he : e < 64 := hrest e (by simp)
  have hf : f < 64 := hrest f (by simp)
  dsimp only at hge hle
  have hchar := encodeChar_four hb (d := next) (e := e) (f := f) (by omega) he hf
    (by omega) (by omega)
  rw [← hvalue] at hchar
  simpa [UInt8.ofNat_toNat] using hchar

/-- Pieces are exact if each that is a character holds the bytes which spell it. -/
def Exact (pieces : List Piece) : Prop :=
  ∀ c bytes, Piece.char c bytes ∈ pieces → bytes = String.utf8EncodeChar c

theorem Exact.of_cons {piece : Piece} {rest : List Piece} (hexact : Exact (piece :: rest)) :
    Exact rest :=
  fun c bytes hmem => hexact c bytes (List.mem_cons_of_mem piece hmem)

theorem begin_exact (b : UInt8) :
    Exact (begin b).1 ∧ ∀ part ∈ (begin b).2, part.Opens := by
  rw [begin_eq]
  split_ifs with hone htwo he0 hed hthree hf0 hfour hf4
  · refine ⟨?_, by simp⟩
    intro c bytes hmem
    obtain ⟨hc, hbytes⟩ : c = Char.ofNat b.toNat ∧ bytes = [b] := by simpa using hmem
    have hval := val_ofNat (v := b.toNat) (by omega)
    subst hc
    unfold String.utf8EncodeChar
    simp only [hval]
    rw [if_pos hone, hbytes, UInt8.ofNat_toNat]
  · exact ⟨by simp [Exact], by simpa using opens_two htwo⟩
  · have hopens : Begun.Opens ⟨[b], 0, 2, 0xA0, 0xBF⟩ := opens_three (by omega) (by omega)
      ⟨Nat.le_add_right 0x80 0x20, fun _ => le_refl 0xA0⟩ ⟨le_refl 0xBF, by omega⟩
    exact ⟨by simp [Exact], by simpa using hopens⟩
  · have hopens : Begun.Opens ⟨[b], 0xD, 2, 0x80, 0x9F⟩ := opens_three (by omega) (by omega)
      ⟨le_refl 0x80, by omega⟩ ⟨Nat.le_add_right 0x9F 0x20, fun _ => le_refl 0x9F⟩
    exact ⟨by simp [Exact], by simpa using hopens⟩
  · have hopens : Begun.Opens ⟨[b], b.toNat - 0xE0, 2, 0x80, 0xBF⟩ :=
      opens_three (by omega) rfl ⟨le_refl 0x80, by omega⟩ ⟨le_refl 0xBF, by omega⟩
    exact ⟨by simp [Exact], by simpa using hopens⟩
  · have hopens : Begun.Opens ⟨[b], 0, 3, 0x90, 0xBF⟩ := opens_four (by omega) (by omega)
      ⟨Nat.le_add_right 0x80 0x10, fun _ => le_refl 0x90⟩ ⟨le_refl 0xBF, by omega⟩
    exact ⟨by simp [Exact], by simpa using hopens⟩
  · have hopens : Begun.Opens ⟨[b], b.toNat - 0xF0, 3, 0x80, 0xBF⟩ :=
      opens_four (by omega) rfl ⟨le_refl 0x80, by omega⟩ ⟨le_refl 0xBF, by omega⟩
    exact ⟨by simp [Exact], by simpa using hopens⟩
  · have hopens : Begun.Opens ⟨[b], 4, 3, 0x80, 0x8F⟩ := opens_four (by omega) (by omega)
      ⟨le_refl 0x80, by omega⟩ ⟨Nat.le_add_right 0x8F 0x30, fun _ => le_refl 0x8F⟩
    exact ⟨by simp [Exact], by simpa using hopens⟩
  · exact ⟨by simp [Exact], by simp⟩

theorem step_exact
    {state : Option Begun} (hstate : ∀ part ∈ state, part.Opens) (b : UInt8) :
    Exact (step state b).1 ∧ ∀ part ∈ (step state b).2, part.Opens := by
  cases state with
  | none => exact begin_exact b
  | some part =>
    have hpart : part.Opens := hstate part rfl
    have howes := hpart.owes
    have hlow := hpart.low_ge
    have hhigh := hpart.high_le
    simp only [step]
    by_cases hrange : part.low ≤ b ∧ b ≤ part.high
    · rw [if_pos hrange]
      rw [UInt8.le_iff_toNat_le, UInt8.le_iff_toNat_le] at hrange
      have hbyte : UInt8.ofNat (b.toNat - 0x80 + 0x80) = b := by
        rw [Nat.sub_add_cancel (by omega), UInt8.ofNat_toNat]
      by_cases howed : part.owed ≤ 1
      · rw [if_pos howed]
        refine ⟨?_, by simp⟩
        intro c bytes hmem
        obtain ⟨hc, hbytes⟩ : c = Char.ofNat (part.value * 64 + (b.toNat - 0x80)) ∧
            bytes = part.taken ++ [b] := by
          simpa using hmem
        have hspelt := hpart.spelt (b.toNat - 0x80) [] (by simp; omega) (by simp)
          (by omega) (by omega)
        rw [List.foldl_nil, List.map_cons, List.map_nil, hbyte] at hspelt
        rw [hbytes, hc, hspelt]
      · rw [if_neg howed]
        refine ⟨by simp [Exact], ?_⟩
        intro next hnext
        obtain rfl := Option.some.inj hnext
        refine ⟨Nat.le_sub_of_add_le (by omega), le_refl 0x80, le_refl 0xBF, ?_⟩
        intro d rest hlength hrest hge hle
        have hdigits : ∀ e ∈ d :: rest, e < 64 := by
          intro e he
          rcases List.mem_cons.mp he with rfl | he
          · exact Nat.lt_of_add_lt_add_right (Nat.lt_succ_of_le hle)
          · exact hrest e he
        have hspelt := hpart.spelt (b.toNat - 0x80) (d :: rest)
          (by simp only [List.length_cons] at hlength ⊢; omega) hdigits (by omega) (by omega)
        rw [List.foldl_cons, List.map_cons, hbyte] at hspelt
        rw [hspelt, List.append_assoc, List.singleton_append]
    · rw [if_neg hrange]
      obtain ⟨hpieces, hopens⟩ := begin_exact b
      refine ⟨?_, hopens⟩
      intro c bytes hmem
      exact hpieces c bytes (by simpa using hmem)

theorem splitFrom_exact
    {state : Option Begun} (hstate : ∀ part ∈ state, part.Opens) (bytes : Bytes) :
    Exact (splitFrom state bytes) := by
  induction bytes generalizing state with
  | nil => cases state <;> simp [splitFrom, Exact]
  | cons b rest ih =>
    obtain ⟨hpieces, hopens⟩ := step_exact hstate b
    intro c bytes hmem
    rw [splitFrom] at hmem
    rcases List.mem_append.mp hmem with hmem | hmem
    · exact hpieces c bytes hmem
    · exact ih hopens c bytes hmem

theorem split_exact (bytes : Bytes) : Exact (split bytes) :=
  splitFrom_exact (by simp) bytes

/-- A text is cut off from whatever stands before it. -/
theorem splitFrom_append_encodeChars
    {state : Option Begun} (hstate : ∀ part ∈ state, part.Opens) (front : Bytes)
    (text : List Char) :
    splitFrom state (front ++ encodeChars text) =
      splitFrom state front ++ splitFrom none (encodeChars text) := by
  induction front generalizing state with
  | nil =>
    cases text with
    | nil => simp [encodeChars, splitFrom]
    | cons c rest =>
      cases state with
      | none => rfl
      | some part =>
        have hopens : part.Opens := hstate part rfl
        have hlow := hopens.low_ge
        have hhigh := hopens.high_le
        obtain ⟨b, more, hchar, hb⟩ := exists_encodeChar_eq_cons c
        have hrange : ¬(part.low ≤ b ∧ b ≤ part.high) := by
          rw [UInt8.le_iff_toNat_le, UInt8.le_iff_toNat_le]
          omega
        rw [encodeChars, List.flatMap_cons, hchar, List.nil_append, List.cons_append]
        simp only [splitFrom, step, if_neg hrange, List.cons_append, List.nil_append]
  | cons b front ih =>
    have hnext := ih (step_exact hstate b).2
    simp only [List.cons_append, splitFrom, hnext, List.append_assoc]

theorem split_append_encodeChars (front : Bytes) (text : List Char) :
    split (front ++ encodeChars text) =
      split front ++ text.map fun c => .char c (String.utf8EncodeChar c) := by
  rw [← split_encodeChars]
  exact splitFrom_append_encodeChars (by simp) front text

theorem bytes_of_exact
    {pieces : List Piece} (hexact : Exact pieces) {text : List Char}
    (htext : pieces.mapM Piece.char? = some text) :
    pieces.flatMap Piece.bytes = encodeChars text := by
  induction pieces generalizing text with
  | nil =>
    obtain rfl : text = [] := by simpa using htext.symm
    rfl
  | cons piece rest ih =>
    have hrest : Exact rest := hexact.of_cons
    cases piece with
    | bad bytes => simp [Piece.char?] at htext
    | char c bytes =>
      have hbytes : bytes = String.utf8EncodeChar c := hexact c bytes List.mem_cons_self
      cases hothers : rest.mapM Piece.char? with
      | none => simp [Piece.char?, hothers] at htext
      | some others =>
        obtain rfl : c :: others = text := by simpa [Piece.char?, hothers] using htext
        rw [List.flatMap_cons, ih hrest hothers, Piece.bytes, hbytes]
        rfl

theorem decodeChars?_eq_some_iff {bytes : Bytes} {text : List Char} :
    decodeChars? bytes = some text ↔ bytes = encodeChars text := by
  constructor
  · intro hdecode
    exact (split_bytes bytes).symm.trans (bytes_of_exact (split_exact bytes) hdecode)
  · intro hbytes
    rw [hbytes, decodeChars?_encodeChars]

theorem decode?_eq_some_iff {bytes : Bytes} {text : String} :
    decode? bytes = some text ↔ bytes = encode text := by
  unfold decode? encode
  rw [Option.map_eq_some_iff]
  constructor
  · rintro ⟨chars, hchars, rfl⟩
    rw [String.toList_ofList]
    exact decodeChars?_eq_some_iff.mp hchars
  · intro hbytes
    exact ⟨text.toList, decodeChars?_eq_some_iff.mpr hbytes, String.ofList_toList⟩

end Utf8
end Text
end LineShell
