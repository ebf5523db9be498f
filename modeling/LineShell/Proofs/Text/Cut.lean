import LineShell.Proofs.Text.Utf8

/-!
# The cut that spellings allow

An encoding is known by how it spells characters.  The spellings alone say how bytes are
to be cut: into characters where one stands, and elsewhere into the longest runs that
begin a character, or into single bytes where none begins.  There is one such cut.  The
reader of UTF-8 makes it: what it holds open always begins a character, and a byte that
it refuses is one with which no character could go on.
-/

namespace LineShell
namespace Text

namespace Piece

/-- The bytes of the piece if it is a character. -/
def kept : Piece → Bytes
  | char _ bytes => bytes
  | bad _ => []

theorem mapM_char?_eq_some
    {pieces : List Piece} {text : List Char} (htext : pieces.mapM char? = some text) :
    pieces.filterMap char? = text ∧ pieces.flatMap kept = pieces.flatMap bytes ∧
      ∀ bytes, bad bytes ∉ pieces := by
  induction pieces generalizing text with
  | nil => simpa using htext.symm
  | cons piece rest ih =>
    cases piece with
    | bad bytes => simp [char?] at htext
    | char c spelt =>
      cases hrest : rest.mapM char? with
      | none => simp [char?, hrest] at htext
      | some others =>
        obtain ⟨hchars, hkept, hbad⟩ := ih hrest
        obtain rfl : c :: others = text := by simpa [char?, hrest] using htext
        refine ⟨?_, ?_, ?_⟩
        · rw [List.filterMap_cons_some (by rfl), hchars]
        · rw [List.flatMap_cons, List.flatMap_cons, hkept]
          rfl
        · simpa using hbad

/-- Pieces that are not all characters are some characters up to an ill-formed piece. -/
theorem exists_of_mapM_char?_eq_none
    {pieces : List Piece} (hnone : pieces.mapM char? = none) :
    ∃ front text bytes rest,
      pieces = front ++ bad bytes :: rest ∧ front.mapM char? = some text := by
  induction pieces with
  | nil => simp at hnone
  | cons piece rest ih =>
    cases piece with
    | bad bytes => exact ⟨[], [], bytes, rest, rfl, rfl⟩
    | char c spelt =>
      have hrest : rest.mapM char? = none := by
        cases hrest : rest.mapM char? with
        | none => rfl
        | some others => simp [char?, hrest] at hnone
      obtain ⟨front, text, bytes, more, rfl, htext⟩ := ih hrest
      exact ⟨char c spelt :: front, c :: text, bytes, more, rfl, by simp [char?, htext]⟩

end Piece

/-- How an encoding spells the characters that it has. -/
abbrev Spelling := Char → Option Bytes

namespace Spelling

variable (spelling : Spelling)

/-- The bytes of a text, if the encoding has all its characters. -/
def write? (text : List Char) : Option Bytes :=
  (text.mapM spelling).map List.flatten

def WellFormed (bytes : Bytes) : Prop :=
  ∃ text, spelling.write? text = some bytes

/-- The bytes are the first ones of a character. -/
def Begins (bytes : Bytes) : Prop :=
  ∃ c spelt, spelling c = some spelt ∧ bytes <+: spelt

/-- A maximal ill-formed piece: where it stands there is no character, and it is the
longest run that begins one, or a single byte if there is none. -/
structure IllFormed (bad rest : Bytes) : Prop where
  ne_nil : bad ≠ []
  unspelt : ∀ c spelt, spelling c = some spelt → ¬ spelt <+: bad ++ rest
  begins : bad.length = 1 ∨ spelling.Begins bad
  maximal : ∀ more, more <+: bad ++ rest → bad.length < more.length → ¬ spelling.Begins more

/-- A piece is what it may be before the rest of the bytes. -/
def Fits (rest : Bytes) : Piece → Prop
  | .char c bytes => spelling c = some bytes
  | .bad bytes => spelling.IllFormed bytes rest

/-- The pieces are a cut of the bytes. -/
inductive Cuts : Bytes → List Piece → Prop
  | nil : Cuts [] []
  | cons {piece : Piece} {rest : Bytes} {pieces : List Piece} (fits : spelling.Fits rest piece)
      (cuts : Cuts rest pieces) : Cuts (piece.bytes ++ rest) (piece :: pieces)

/-- A reader finds each character where it is spelt, and takes off one piece after the
other. -/
structure ReadBy (split : Bytes → List Piece) : Prop where
  nil : split [] = []
  char : ∀ {c spelt}, spelling c = some spelt →
    ∀ rest, split (spelt ++ rest) = .char c spelt :: split rest
  first : ∀ {bytes}, bytes ≠ [] → ∃ piece rest, bytes = piece.bytes ++ rest ∧
    split bytes = piece :: split rest ∧ spelling.Fits rest piece

variable {spelling}

/-! ## Written texts -/

theorem write?_cons_eq_some_iff {c : Char} {text : List Char} {bytes : Bytes} :
    spelling.write? (c :: text) = some bytes ↔
      ∃ spelt rest, spelling c = some spelt ∧ spelling.write? text = some rest ∧
        bytes = spelt ++ rest := by
  unfold write?
  rw [List.mapM_cons]
  cases spelling c with
  | none => simp
  | some spelt =>
    cases text.mapM spelling with
    | none => simp
    | some chunks => simp [eq_comm]

/-- The characters among the pieces stand for the bytes that spell them. -/
def Spells (pieces : List Piece) : Prop :=
  ∀ c bytes, Piece.char c bytes ∈ pieces → spelling c = some bytes

theorem Spells.write?_eq {pieces : List Piece} (hspells : spelling.Spells pieces) :
    spelling.write? (pieces.filterMap Piece.char?) = some (pieces.flatMap Piece.kept) := by
  induction pieces with
  | nil => rfl
  | cons piece rest ih =>
    have hrest := ih fun c bytes hmem => hspells c bytes (List.mem_cons_of_mem piece hmem)
    cases piece with
    | bad bytes => exact hrest
    | char c spelt =>
      rw [List.filterMap_cons_some (by rfl), List.flatMap_cons, write?_cons_eq_some_iff]
      exact ⟨spelt, _, hspells c spelt List.mem_cons_self, hrest, rfl⟩

theorem Cuts.spells
    {bytes : Bytes} {pieces : List Piece} (hcuts : spelling.Cuts bytes pieces) :
    spelling.Spells pieces := by
  induction hcuts with
  | nil =>
    intro c bytes hmem
    cases hmem
  | cons hfits hcuts ih =>
    intro c bytes hmem
    rcases List.mem_cons.mp hmem with rfl | hmem
    · exact hfits
    · exact ih c bytes hmem

theorem Cuts.flatMap_bytes
    {bytes : Bytes} {pieces : List Piece} (hcuts : spelling.Cuts bytes pieces) :
    pieces.flatMap Piece.bytes = bytes := by
  induction hcuts with
  | nil => rfl
  | cons hfits hcuts ih => rw [List.flatMap_cons, ih]

theorem Cuts.ne_nil_of_bad
    {bytes bad : Bytes} {front rest : List Piece}
    (hcuts : spelling.Cuts bytes (front ++ .bad bad :: rest)) : bad ≠ [] := by
  induction front generalizing bytes with
  | nil =>
    cases hcuts with
    | cons hfits hrest => exact hfits.ne_nil
  | cons piece more ih =>
    cases hcuts with
    | cons hfits hrest => exact ih hrest

/-! ## One cut -/

/-- Of two ill-formed pieces of the same bytes neither is longer. -/
theorem IllFormed.length_le
    {bad rest other more : Bytes} (hbad : spelling.IllFormed bad rest)
    (hother : spelling.IllFormed other more) (hsame : bad ++ rest = other ++ more) :
    other.length ≤ bad.length := by
  by_contra hlonger
  have hnone : ¬ spelling.Begins other :=
    hbad.maximal other (hsame ▸ List.prefix_append other more) (by omega)
  rcases hother.begins with hone | hbegins
  · have hpos := List.length_pos_of_ne_nil hbad.ne_nil
    omega
  · exact hnone hbegins

namespace ReadBy

variable {split : Bytes → List Piece}

theorem ne_nil
    (hread : spelling.ReadBy split) {c : Char} {spelt : Bytes}
    (hspelt : spelling c = some spelt) : spelt ≠ [] := by
  rintro rfl
  have hagain := congrArg List.length (hread.char hspelt [])
  simp at hagain

theorem cuts_split (hread : spelling.ReadBy split) (bytes : Bytes) :
    spelling.Cuts bytes (split bytes) := by
  induction hlength : bytes.length using Nat.strongRecOn generalizing bytes with
  | ind length ih =>
    rcases eq_or_ne bytes [] with rfl | hne
    · rw [hread.nil]
      exact .nil
    · obtain ⟨piece, rest, rfl, hsplit, hfits⟩ := hread.first hne
      have hpiece : piece.bytes ≠ [] := by
        cases piece with
        | char c spelt => exact hread.ne_nil hfits
        | bad bad => exact hfits.ne_nil
      have hpos := List.length_pos_of_ne_nil hpiece
      rw [List.length_append] at hlength
      rw [hsplit]
      exact .cons hfits (ih rest.length (by omega) rest rfl)

theorem eq_split_of_cuts
    (hread : spelling.ReadBy split) {bytes : Bytes} {pieces : List Piece}
    (hcuts : spelling.Cuts bytes pieces) : pieces = split bytes := by
  induction hcuts with
  | nil => exact hread.nil.symm
  | @cons piece rest pieces hfits hcuts ih =>
    cases piece with
    | char c spelt => exact ih ▸ (hread.char hfits rest).symm
    | bad bad =>
      have hbad : spelling.IllFormed bad rest := hfits
      have hne : bad ++ rest ≠ [] := List.append_ne_nil_of_left_ne_nil hbad.ne_nil rest
      obtain ⟨found, more, hbytes, hsplit, hfound⟩ := hread.first hne
      cases found with
      | char c spelt => exact absurd ⟨more, hbytes.symm⟩ (hbad.unspelt c spelt hfound)
      | bad other =>
        have hother : spelling.IllFormed other more := hfound
        have hbytes : bad ++ rest = other ++ more := hbytes
        -- Each is the longest where it stands, and they stand at the same place.
        have hlength := Nat.le_antisymm (hother.length_le hbad hbytes.symm)
          (hbad.length_le hother hbytes)
        obtain ⟨rfl, rfl⟩ := List.append_inj hbytes hlength
        exact ih ▸ hsplit.symm

theorem cuts_iff (hread : spelling.ReadBy split) {bytes : Bytes} {pieces : List Piece} :
    spelling.Cuts bytes pieces ↔ pieces = split bytes :=
  ⟨hread.eq_split_of_cuts, fun hpieces => hpieces ▸ hread.cuts_split bytes⟩

/-! ## Well-formed bytes -/

theorem split_append
    (hread : spelling.ReadBy split) {text : List Char} {front : Bytes}
    (hfront : spelling.write? text = some front) (rest : Bytes) :
    split (front ++ rest) = split front ++ split rest ∧
      (split front).mapM Piece.char? = some text := by
  induction text generalizing front with
  | nil =>
    obtain rfl : front = [] := by simpa [write?] using hfront.symm
    simp [hread.nil]
  | cons c text ih =>
    obtain ⟨spelt, others, hspelt, hothers, rfl⟩ := write?_cons_eq_some_iff.mp hfront
    obtain ⟨hsplit, hchars⟩ := ih hothers
    rw [List.append_assoc, hread.char hspelt, hread.char hspelt, hsplit]
    exact ⟨rfl, by simp [hchars, Piece.char?]⟩

theorem write?_eq_some_iff
    (hread : spelling.ReadBy split) {text : List Char} {bytes : Bytes} :
    spelling.write? text = some bytes ↔ (split bytes).mapM Piece.char? = some text := by
  constructor
  · intro hbytes
    exact (hread.split_append hbytes []).2
  · intro htext
    have hcuts := hread.cuts_split bytes
    obtain ⟨hchars, hkept, -⟩ := Piece.mapM_char?_eq_some htext
    rw [← hchars, hcuts.spells.write?_eq, hkept, hcuts.flatMap_bytes]

variable {bytes bad : Bytes} {front more : List Piece} {text : List Char}

/-- Up to the first ill-formed piece the bytes are well formed. -/
theorem wellFormed_front
    (hread : spelling.ReadBy split) (hsplit : split bytes = front ++ .bad bad :: more)
    (hfront : front.mapM Piece.char? = some text) :
    spelling.WellFormed (front.flatMap Piece.bytes) := by
  have hspells : spelling.Spells front := by
    intro c spelt hmem
    apply (hread.cuts_split bytes).spells c spelt
    rw [hsplit]
    exact List.mem_append_left _ hmem
  obtain ⟨-, hkept, -⟩ := Piece.mapM_char?_eq_some hfront
  exact ⟨_, hspells.write?_eq.trans (congrArg some hkept)⟩

/-- No well-formed bytes reach beyond the first ill-formed piece. -/
theorem length_le_of_wellFormed
    (hread : spelling.ReadBy split) (hsplit : split bytes = front ++ .bad bad :: more)
    {start : Bytes} (hstart : start <+: bytes) (hwell : spelling.WellFormed start) :
    start.length ≤ (front.flatMap Piece.bytes).length := by
  obtain ⟨rest, rfl⟩ := hstart
  obtain ⟨text, htext⟩ := hwell
  obtain ⟨happend, hchars⟩ := hread.split_append htext rest
  obtain ⟨-, -, hbad⟩ := Piece.mapM_char?_eq_some hchars
  have hbytes : (split start).flatMap Piece.bytes = start :=
    (hread.cuts_split start).flatMap_bytes
  rw [happend] at hsplit
  rcases List.append_eq_append_iff.mp hsplit with ⟨between, hfront, -⟩ | ⟨between, hlong, htail⟩
  · rw [hfront, List.flatMap_append, hbytes, List.length_append]
    exact Nat.le_add_right _ _
  · cases between with
    | nil => rw [← hbytes, hlong, List.append_nil]
    | cons piece others =>
      obtain ⟨rfl, -⟩ := List.cons.inj htail
      exact absurd (hlong ▸ List.mem_append_right front List.mem_cons_self) (hbad bad)

end ReadBy
end Spelling

namespace Utf8

def spelling : Spelling :=
  fun c => some (String.utf8EncodeChar c)

/-- What is read as an ill-formed piece has no character at its beginning. -/
theorem not_prefix_of_bad
    {bytes bad : Bytes} {pieces : List Piece}
    (hbad : splitFrom none bytes = .bad bad :: pieces) (c : Char) :
    ¬ String.utf8EncodeChar c <+: bytes := by
  rintro ⟨rest, rfl⟩
  rw [splitFrom_encodeChar] at hbad
  cases hbad

/-- Bytes behind which an ill-formed piece is read, whatever follows, begin no
character. -/
theorem not_begins_of_bad
    {bytes : Bytes}
    (hbad : ∀ rest, ∃ bad pieces, splitFrom none (bytes ++ rest) = .bad bad :: pieces)
    {more : Bytes} (hmore : bytes <+: more) : ¬ spelling.Begins more := by
  rintro ⟨c, spelt, hspelt, hprefix⟩
  obtain rfl : String.utf8EncodeChar c = spelt := Option.some.inj hspelt
  obtain ⟨rest, hrest⟩ := hmore.trans hprefix
  obtain ⟨bad, pieces, hpieces⟩ := hbad rest
  rw [hrest] at hpieces
  exact not_prefix_of_bad hpieces c (List.prefix_refl _)

/-- A character that is held open has been reached through the bytes taken, which begin
a character. -/
structure Begun.Reached (part : Begun) : Prop where
  read : ∀ rest, splitFrom none (part.taken ++ rest) = splitFrom (some part) rest
  opens : part.Opens
  begins : spelling.Begins part.taken

variable {part : Begun}

theorem Begun.Opens.begins
    (hopens : part.Opens) {b : UInt8} (hlow : part.low ≤ b) (hhigh : b ≤ part.high) :
    spelling.Begins (part.taken ++ [b]) := by
  rw [UInt8.le_iff_toNat_le] at hlow hhigh
  have hge := hopens.low_ge
  have howes := hopens.owes
  have hspelt := hopens.spelt (b.toNat - 0x80) (List.replicate (part.owed - 1) 0)
    (by simp; omega) (by simp) (by omega) (by omega)
  have hbyte : UInt8.ofNat (b.toNat - 0x80 + 0x80) = b := by
    rw [Nat.sub_add_cancel (by omega), UInt8.ofNat_toNat]
  rw [List.map_cons, hbyte] at hspelt
  have hprefix := List.prefix_append (part.taken ++ [b])
    ((List.replicate (part.owed - 1) 0).map fun d => UInt8.ofNat (d + 0x80))
  rw [List.append_assoc, List.singleton_append, ← hspelt] at hprefix
  exact ⟨_, _, rfl, hprefix⟩

/-- A first byte is a piece by itself or opens a character. -/
theorem begin_cases (b : UInt8) :
    (∃ piece, begin b = ([piece], none) ∧ piece.bytes = [b]) ∨
      ∃ part, begin b = ([], some part) ∧ part.taken = [b] ∧ part.low ≤ part.high := by
  unfold begin
  split_ifs
  all_goals first
    | exact Or.inl ⟨_, rfl, rfl⟩
    | exact Or.inr ⟨_, rfl, rfl, by dsimp only; decide⟩

theorem begin_reached
    {b : UInt8} (hbegin : begin b = ([], some part)) (htaken : part.taken = [b])
    (hrange : part.low ≤ part.high) : part.Reached := by
  have hopens : part.Opens := (begin_exact b).2 part (by rw [hbegin]; rfl)
  constructor
  · intro rest
    rw [htaken, List.singleton_append, splitFrom, step, hbegin]
    rfl
  · exact hopens
  · obtain ⟨c, spelt, hspelt, hprefix⟩ := hopens.begins UInt8.le_rfl hrange
    exact ⟨c, spelt, hspelt, (List.prefix_append _ _).trans hprefix⟩

/-- A byte that the open character cannot take makes an ill-formed piece of the bytes
taken and is read again. -/
theorem splitFrom_refused
    {b : UInt8} (hrange : ¬(part.low ≤ b ∧ b ≤ part.high)) (rest : Bytes) :
    splitFrom (some part) (b :: rest) = .bad part.taken :: splitFrom none (b :: rest) := by
  rw [splitFrom, splitFrom]
  simp only [step, if_neg hrange, List.cons_append]

namespace Begun.Reached

theorem ne_nil (hpart : part.Reached) : part.taken ≠ [] := by
  intro hnil
  have hread := hpart.read []
  rw [hnil] at hread
  cases hread

/-- Where the bytes end, or go on with a byte that is refused, the bytes taken are an
ill-formed piece. -/
theorem illFormed
    (hpart : part.Reached) {rest : Bytes}
    (hrest : ∀ b ∈ rest.head?, ¬(part.low ≤ b ∧ b ≤ part.high)) :
    spelling.IllFormed part.taken rest := by
  constructor
  · exact hpart.ne_nil
  · intro c spelt hspelt
    obtain rfl : String.utf8EncodeChar c = spelt := Option.some.inj hspelt
    cases rest with
    | nil => exact not_prefix_of_bad (hpart.read []) c
    | cons b more =>
      have hread := hpart.read (b :: more)
      rw [splitFrom_refused (hrest b rfl)] at hread
      exact not_prefix_of_bad hread c
  · exact Or.inr hpart.begins
  · intro more hmore hlonger
    cases rest with
    | nil =>
      have hle := hmore.length_le
      rw [List.append_nil] at hle
      omega
    | cons b others =>
      have hprefix : part.taken ++ [b] <+: more := by
        have hfront : part.taken ++ [b] <+: part.taken ++ b :: others :=
          (List.prefix_append_right_inj part.taken).mpr
            (List.cons_prefix_cons.mpr ⟨rfl, List.nil_prefix⟩)
        exact List.prefix_of_prefix_length_le hfront hmore (by simpa using hlonger)
      refine not_begins_of_bad ?_ hprefix
      intro rest
      rw [List.append_assoc, List.singleton_append, hpart.read,
        splitFrom_refused (hrest b rfl)]
      exact ⟨_, _, rfl⟩

/-- The first piece behind an open character. -/
theorem first (hpart : part.Reached) (bytes : Bytes) :
    ∃ piece rest, part.taken ++ bytes = piece.bytes ++ rest ∧
      splitFrom (some part) bytes = piece :: splitFrom none rest ∧
      spelling.Fits rest piece := by
  induction bytes generalizing part with
  | nil => exact ⟨.bad part.taken, [], rfl, rfl, hpart.illFormed (by simp)⟩
  | cons b more ih =>
    by_cases hrange : part.low ≤ b ∧ b ≤ part.high
    · have hstate : ∀ other ∈ some part, other.Opens :=
        fun _ hsome => Option.some.inj hsome ▸ hpart.opens
      obtain ⟨hexact, hopens⟩ := step_exact hstate b
      simp only [step, if_pos hrange] at hexact hopens
      rw [splitFrom]
      simp only [step, if_pos hrange]
      by_cases howed : part.owed ≤ 1
      · rw [if_pos howed] at hexact ⊢
        refine ⟨_, more, ?_, rfl, ?_⟩
        · simp [Piece.bytes]
        · exact congrArg some (hexact _ _ List.mem_cons_self).symm
      · rw [if_neg howed] at hopens ⊢
        have hread : ∀ rest, splitFrom none (part.taken ++ [b] ++ rest) =
            splitFrom (some ⟨part.taken ++ [b], part.value * 64 + (b.toNat - 0x80),
              part.owed - 1, 0x80, 0xBF⟩) rest := by
          intro rest
          rw [List.append_assoc, List.singleton_append, hpart.read, splitFrom]
          simp only [step, if_pos hrange, if_neg howed, List.nil_append]
        obtain ⟨piece, rest, hbytes, hsplit, hfits⟩ :=
          ih ⟨hread, hopens _ rfl, hpart.opens.begins hrange.1 hrange.2⟩
        refine ⟨piece, rest, ?_, hsplit, hfits⟩
        rw [← hbytes, List.append_assoc, List.singleton_append]
    · refine ⟨.bad part.taken, b :: more, rfl, splitFrom_refused hrange more, ?_⟩
      refine hpart.illFormed ?_
      intro other hother
      obtain rfl : b = other := by simpa using hother
      exact hrange

end Begun.Reached

/-- A byte that begins no character is an ill-formed piece. -/
theorem illFormed_of_begin
    {b : UInt8} {bad : Bytes} (hbegin : begin b = ([.bad bad], none)) (hbad : bad = [b])
    (rest : Bytes) : spelling.IllFormed [b] rest := by
  have hread : ∀ rest, splitFrom none (b :: rest) = .bad [b] :: splitFrom none rest := by
    intro rest
    rw [splitFrom, step, hbegin, hbad]
    rfl
  constructor
  · exact List.cons_ne_nil b []
  · intro c spelt hspelt
    obtain rfl : String.utf8EncodeChar c = spelt := Option.some.inj hspelt
    exact not_prefix_of_bad (hread rest) c
  · exact Or.inl rfl
  · intro more hmore hlonger
    have hprefix : [b] <+: more :=
      List.prefix_of_prefix_length_le (List.prefix_append [b] rest) hmore hlonger.le
    exact not_begins_of_bad (fun rest => ⟨_, _, hread rest⟩) hprefix

/-- The reader of UTF-8 cuts as the spellings demand. -/
theorem readBy_split : spelling.ReadBy split := by
  constructor
  · rfl
  · intro c spelt hspelt rest
    obtain rfl : String.utf8EncodeChar c = spelt := Option.some.inj hspelt
    exact splitFrom_encodeChar c rest
  · intro bytes hne
    obtain ⟨b, more, rfl⟩ := List.exists_cons_of_ne_nil hne
    rcases begin_cases b with
      ⟨piece, hbegin, hbytes⟩ | ⟨part, hbegin, htaken, hrange⟩
    · refine ⟨piece, more, by rw [hbytes, List.singleton_append], ?_, ?_⟩
      · rw [split, splitFrom, step, hbegin]
        rfl
      · cases piece with
        | char c spelt =>
          have hexact := (begin_exact b).1 c spelt (by rw [hbegin]; exact List.mem_cons_self)
          exact congrArg some hexact.symm
        | bad bad =>
          have hbad : bad = [b] := hbytes
          exact hbad ▸ illFormed_of_begin hbegin hbad more
    · have hpart := begin_reached hbegin htaken hrange
      obtain ⟨piece, rest, hbytes, hsplit, hfits⟩ := hpart.first more
      have hread := hpart.read more
      rw [htaken, List.singleton_append] at hbytes hread
      exact ⟨piece, rest, hbytes, hread.trans hsplit, hfits⟩

end Utf8
end Text
end LineShell
