import LineShell.Text.Utf8
import LineShell.Text.WordCharacter

/-!
# The last text literal of a source

A look ahead over the bytes of a source finds its last text literal and tells
whether it was closed.  A literal opens with one quote or three equal ones,
after at most two of the letters r, b, f and u.  A backslash inside hides the
next byte, except in a literal with an r.  A number sign at the start of the
source or after a blank begins a comment, which holds no literal.

The look ahead is a machine that reads one byte at a time, so what it says of a
source can be followed along the source.
-/

namespace LineShell

/-- Where a literal stands: the offset of its first byte, the offset after its
last one if it was closed, and the letters and quotes that open it. -/
structure Literal where
  start : Nat
  stop : Option Nat
  opening : Bytes
  deriving DecidableEq, Repr

namespace Literal

open Text

def isOpen (literal : Literal) : Bool :=
  literal.stop.isNone

/-- Whether a character may stand before the quote of a literal as a part of
it. -/
def isPrefixLetter (c : Char) : Bool :=
  "rRbBfFuU".toList.contains c

/-- Whether the end of a text, given with its last piece first, lets a word begin
after it: it is empty or ends with a character that is no word character. -/
def endsWord (isWord : Char → Bool) : List Piece → Bool
  | [] => true
  | .char c _ :: _ => !isWord c
  | .bad _ :: _ => false

/-- How many of the last pieces, given with the last one first, are the prefix of
a literal that opens after them. -/
def prefixCount (isWord : Char → Bool) : List Piece → Nat
  | .char c _ :: .char d _ :: rest =>
    if isPrefixLetter c then
      if isPrefixLetter d && endsWord isWord rest then 2
      else if !isWord d then 1
      else 0
    else 0
  | .char c _ :: rest => if isPrefixLetter c && endsWord isWord rest then 1 else 0
  | _ => 0

/-- The prefix letters at the end of the bytes before a quote. -/
def prefixOf (isWord : Char → Bool) (before : Bytes) : Bytes :=
  before.drop (before.length - prefixCount isWord (Utf8.split before).reverse)

/-- How many bytes before a quote are looked at: two letters and the widest
character before them. -/
def window : Nat := 6

/-- A literal that is being read: its quote, whether a backslash is an ordinary
byte in it, and whether three quotes close it. -/
structure Kind where
  quote : UInt8
  raw : Bool
  triple : Bool
  deriving DecidableEq, Repr

/-- Where the look ahead stands: outside literals, in a comment, after the first
or the second quote of a literal that opens, inside a literal with a number of
closing quotes just read, or behind a backslash in a literal. -/
inductive Mode where
  | code
  | comment
  | oneQuote (kind : Kind)
  | twoQuotes (kind : Kind)
  | inside (kind : Kind) (closing : Nat)
  | hidden (kind : Kind)
  deriving DecidableEq, Repr

/-- The look ahead over a part of a source: the bytes read, the last one first,
their number, the last literal and where it stands. -/
structure LookAhead where
  before : Bytes
  offset : Nat
  last : Option Literal
  mode : Mode
  deriving DecidableEq, Repr

namespace LookAhead

def initial : LookAhead :=
  ⟨[], 0, none, .code⟩

/-- The last literal is closed before the byte at an offset. -/
def close (look : LookAhead) (stop : Nat) : LookAhead :=
  { look with last := look.last.map fun literal => { literal with stop := some stop } }

def mayComment (look : LookAhead) : Bool :=
  match look.before with
  | [] => true
  | b :: _ => b == 32 || b == 9 || b == 10

def readCode (isWord : Char → Bool) (look : LookAhead) (b : UInt8) : LookAhead :=
  if b == 35 && look.mayComment then { look with mode := .comment }
  else if b == 39 || b == 34 then
    let letters := prefixOf isWord (look.before.take window).reverse
    let raw := letters.any fun letter => letter == 114 || letter == 82
    { look with
      last := some ⟨look.offset - letters.length, none, letters ++ [b]⟩
      mode := .oneQuote ⟨b, raw, false⟩ }
  else { look with mode := .code }

/-- A byte inside a literal, after a number of closing quotes. -/
def readInside (look : LookAhead) (kind : Kind) (closing : Nat) (b : UInt8) : LookAhead :=
  if b == 92 && !kind.raw then { look with mode := .hidden kind }
  else if b == kind.quote then
    if !kind.triple || closing == 2 then { look.close (look.offset + 1) with mode := .code }
    else { look with mode := .inside kind (closing + 1) }
  else { look with mode := .inside kind 0 }

/-- What a byte changes, apart from being counted. -/
def read (isWord : Char → Bool) (look : LookAhead) (b : UInt8) : LookAhead :=
  match look.mode with
  | .code => readCode isWord look b
  | .comment => if b == 10 then { look with mode := .code } else look
  | .oneQuote kind =>
    if b == kind.quote then { look.close (look.offset + 1) with mode := .twoQuotes kind }
    else readInside look kind 0 b
  | .twoQuotes kind =>
    if b == kind.quote then
      { look with
        last := look.last.map fun literal =>
          { literal with stop := none, opening := literal.opening ++ [b, b] }
        mode := .inside { kind with triple := true } 0 }
    else readCode isWord look b
  | .inside kind closing => readInside look kind closing b
  | .hidden kind => { look with mode := .inside kind 0 }

def step (isWord : Char → Bool) (look : LookAhead) (b : UInt8) : LookAhead :=
  { read isWord look b with before := b :: look.before, offset := look.offset + 1 }

end LookAhead

/-- The last literal of a byte string, for a classification of characters. -/
def lastIn? (isWord : Char → Bool) (bytes : Bytes) : Option Literal :=
  (bytes.foldl (LookAhead.step isWord) LookAhead.initial).last

def last? (source : String) : Option Literal :=
  lastIn? isWord (Utf8.encode source)

def endsInside (source : String) : Bool :=
  (last? source).any isOpen

end Literal
end LineShell
