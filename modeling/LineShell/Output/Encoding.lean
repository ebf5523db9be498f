import LineShell.Text.Blank
import LineShell.Text.Numeral
import LineShell.Text.Utf8

/-!
# Encodings of captured output

Captured bytes become text in one of three encodings.  An encoding cuts a byte
string into characters and ill-formed pieces; a policy says what stands in the
place of an ill-formed piece, or that the whole reading fails.
-/

namespace LineShell
namespace Output

open Text

/-- An encoding of text. -/
inductive Encoding where
  | utf8
  | ascii
  | latin1
  deriving DecidableEq, Repr, Inhabited

/-- What becomes of bytes that the encoding cannot read. -/
inductive ErrorPolicy where
  | strict
  | replace
  | ignore
  | backslashReplace
  deriving DecidableEq, Repr

/-- The first byte that could not be read, and its place. -/
structure DecodeFault where
  encoding : Encoding
  byte : UInt8
  offset : Nat
  deriving DecidableEq, Repr

namespace Encoding

def name : Encoding → String
  | utf8 => "utf-8"
  | ascii => "ascii"
  | latin1 => "latin-1"

/-- The encoding with a name; case and blanks around it do not matter, and an
underscore stands for a hyphen. -/
def ofName? (text : String) : Option Encoding :=
  let folded := (foldName text).map fun c => if c == '_' then '-' else c
  if folded = "utf-8" ∨ folded = "utf8" then some utf8
  else if folded = "ascii" ∨ folded = "us-ascii" then some ascii
  else if folded = "latin-1" ∨ folded = "latin1" ∨ folded = "iso-8859-1" then some latin1
  else none

/-- A byte read by itself as the character with its number. -/
def single (b : UInt8) : Piece :=
  .char (Char.ofNat b.toNat) [b]

def split : Encoding → Bytes → List Piece
  | utf8, bytes => Utf8.split bytes
  | ascii, bytes => bytes.map fun b => if b < 0x80 then single b else .bad [b]
  | latin1, bytes => bytes.map single

end Encoding

namespace ErrorPolicy

def name : ErrorPolicy → String
  | strict => "strict"
  | replace => "replace"
  | ignore => "ignore"
  | backslashReplace => "backslashreplace"

/-- The policy with a name; case and blanks around it do not matter. -/
def ofName? (text : String) : Option ErrorPolicy :=
  let folded := foldName text
  if folded = "strict" then some strict
  else if folded = "replace" then some replace
  else if folded = "ignore" then some ignore
  else if folded = "backslashreplace" then some backslashReplace
  else none

/-- A byte written as an escape of two hexadecimal digits. -/
def escape (b : UInt8) : List Char :=
  '\\' :: 'x' :: Numeral.hex 2 b.toNat

/-- What stands in the place of an ill-formed piece; under the strict policy
nothing may. -/
def substitute? : ErrorPolicy → Bytes → Option (List Char)
  | strict, _ => none
  | replace, _ => some [Char.ofNat 0xFFFD]
  | ignore, _ => some []
  | backslashReplace, bytes => some (bytes.flatMap escape)

end ErrorPolicy

namespace DecodeFault

def message (fault : DecodeFault) : String :=
  "cannot decode byte 0x" ++ Numeral.hexText 2 fault.byte.toNat ++ " at offset " ++
    Numeral.naturalText fault.offset ++ " as " ++ fault.encoding.name

end DecodeFault

def joinPieces (encoding : Encoding) (policy : ErrorPolicy) :
    Nat → List Piece → Except DecodeFault (List Char)
  | _, [] => .ok []
  | offset, .char c bytes :: rest =>
    (joinPieces encoding policy (offset + bytes.length) rest).map (c :: ·)
  | offset, .bad bytes :: rest =>
    match policy.substitute? bytes with
    | none => .error ⟨encoding, bytes.headD 0, offset⟩
    | some text => (joinPieces encoding policy (offset + bytes.length) rest).map (text ++ ·)

def decodeChars (encoding : Encoding) (policy : ErrorPolicy) (bytes : Bytes) :
    Except DecodeFault (List Char) :=
  joinPieces encoding policy 0 (encoding.split bytes)

def decode (encoding : Encoding) (policy : ErrorPolicy) (bytes : Bytes) :
    Except DecodeFault String :=
  (decodeChars encoding policy bytes).map String.ofList

end Output
end LineShell
