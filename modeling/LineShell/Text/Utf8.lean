/-!
# UTF-8 text as bytes

Bytes are a list of octets.  A text is written by concatenating the encodings of
its characters; a byte string is read by cutting it into pieces, each a whole
character or a maximal run that cannot begin one.  The cut loses nothing: the
bytes of the pieces, put together again, are the input.
-/

namespace LineShell

/-- A byte string. -/
abbrev Bytes := List UInt8

namespace Text

/-- A stretch of a byte string: a character with the bytes that spell it, or
bytes that spell none. -/
inductive Piece where
  | char (c : Char) (bytes : Bytes)
  | bad (bytes : Bytes)
  deriving DecidableEq, Repr

namespace Piece

def bytes : Piece → Bytes
  | char _ bytes => bytes
  | bad bytes => bytes

/-- The character that the stretch spells, if it spells one. -/
def char? : Piece → Option Char
  | char c _ => some c
  | bad _ => none

end Piece

namespace Utf8

def encodeChars (text : List Char) : Bytes :=
  text.flatMap String.utf8EncodeChar

def encode (text : String) : Bytes :=
  encodeChars text.toList

/-- A character whose first bytes have been read: the bytes, the bits that they
carry, how many are still owed, and the range of the next one. -/
structure Begun where
  taken : Bytes
  value : Nat
  owed : Nat
  low : UInt8
  high : UInt8
  deriving DecidableEq, Repr

def begin (b : UInt8) : List Piece × Option Begun :=
  if b ≤ 0x7F then ([.char (Char.ofNat b.toNat) [b]], none)
  else if 0xC2 ≤ b ∧ b ≤ 0xDF then ([], some ⟨[b], b.toNat - 0xC0, 1, 0x80, 0xBF⟩)
  else if b = 0xE0 then ([], some ⟨[b], 0, 2, 0xA0, 0xBF⟩)
  else if b = 0xED then ([], some ⟨[b], 0xD, 2, 0x80, 0x9F⟩)
  else if 0xE1 ≤ b ∧ b ≤ 0xEF then ([], some ⟨[b], b.toNat - 0xE0, 2, 0x80, 0xBF⟩)
  else if b = 0xF0 then ([], some ⟨[b], 0, 3, 0x90, 0xBF⟩)
  else if 0xF1 ≤ b ∧ b ≤ 0xF3 then ([], some ⟨[b], b.toNat - 0xF0, 3, 0x80, 0xBF⟩)
  else if b = 0xF4 then ([], some ⟨[b], 4, 3, 0x80, 0x8F⟩)
  else ([.bad [b]], none)

/-- One byte: the pieces that it settles and the character that it leaves open.
A byte that cannot continue the open character ends that one as ill-formed and
is read again as a beginning. -/
def step : Option Begun → UInt8 → List Piece × Option Begun
  | none, b => begin b
  | some part, b =>
    if part.low ≤ b ∧ b ≤ part.high then
      let taken := part.taken ++ [b]
      let value := part.value * 64 + (b.toNat - 0x80)
      if part.owed ≤ 1 then ([.char (Char.ofNat value) taken], none)
      else ([], some ⟨taken, value, part.owed - 1, 0x80, 0xBF⟩)
    else
      let (pieces, rest) := begin b
      (.bad part.taken :: pieces, rest)

/-- The pieces of the bytes that follow an open character; one that the input
cuts off is a single ill-formed piece. -/
def splitFrom : Option Begun → Bytes → List Piece
  | none, [] => []
  | some part, [] => [.bad part.taken]
  | state, b :: rest =>
    let (pieces, state) := step state b
    pieces ++ splitFrom state rest

def split (bytes : Bytes) : List Piece :=
  splitFrom none bytes

/-- The text that the bytes spell, if they are well formed throughout. -/
def decodeChars? (bytes : Bytes) : Option (List Char) :=
  (split bytes).mapM Piece.char?

/-- The string that the bytes spell, if they are well formed throughout. -/
def decode? (bytes : Bytes) : Option String :=
  (decodeChars? bytes).map String.ofList

/-- The string that the bytes spell, with a replacement character for each piece
that is ill formed. -/
def decodeLossy (bytes : Bytes) : String :=
  String.ofList ((split bytes).map fun piece => (piece.char?).getD (Char.ofNat 0xFFFD))

def taken : Option Begun → Bytes
  | none => []
  | some part => part.taken

theorem begin_bytes (b : UInt8) :
    (begin b).1.flatMap Piece.bytes ++ taken (begin b).2 = [b] := by
  unfold begin
  repeat' split
  all_goals rfl

theorem step_bytes (state : Option Begun) (b : UInt8) :
    (step state b).1.flatMap Piece.bytes ++ taken (step state b).2 =
      taken state ++ [b] := by
  cases state with
  | none => exact begin_bytes b
  | some part =>
    simp only [step]
    split
    · split <;> simp [taken, Piece.bytes]
    · simp [taken, Piece.bytes, ← begin_bytes b]

theorem splitFrom_bytes (state : Option Begun) (bytes : Bytes) :
    (splitFrom state bytes).flatMap Piece.bytes = taken state ++ bytes := by
  induction bytes generalizing state with
  | nil => cases state <;> simp [splitFrom, taken, Piece.bytes]
  | cons b rest ih =>
    have hstep := step_bytes state b
    simp only [splitFrom, List.flatMap_append, ih]
    rw [← List.append_assoc, hstep]
    simp

/-- The pieces of a byte string, put together again, are the byte string. -/
theorem split_bytes (bytes : Bytes) :
    (split bytes).flatMap Piece.bytes = bytes := by
  simpa [split, taken] using splitFrom_bytes none bytes

end Utf8
end Text
end LineShell
