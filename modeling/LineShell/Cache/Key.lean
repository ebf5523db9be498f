import LineShell.Text.Numeral
import LineShell.Text.Utf8

/-!
# Keys and stamps of cache entries

An entry is filed under the digest of its source and is stamped with what must
still hold when it is used: the identity of the compiler and, for a script, the
time of the file's last change.
-/

namespace LineShell
namespace Cache

open Text

/-- A function from bytes to numbers of 128 bits. -/
abbrev DigestFunction := Bytes → BitVec 128

/-- The key of an entry. -/
structure Key where
  value : BitVec 128
  deriving DecidableEq, Repr

namespace Key

def ofSource (digest : DigestFunction) (source : String) : Key :=
  ⟨digest (Utf8.encode source)⟩

def render (key : Key) : String :=
  Numeral.hexText 32 key.value.toNat

/-- The key that a text of 32 bytes spells in hexadecimal digits; the first of
them may be a plus sign. -/
def parse? (text : String) : Option Key :=
  if (Utf8.encode text).length = 32 then
    (Numeral.unsigned? 16 (1 <<< 128) text.toList).map fun n => ⟨BitVec.ofNat 128 n⟩
  else none

end Key

/-- What was in force when an entry was written. -/
structure Stamp where
  text : String
  deriving DecidableEq, Repr

namespace Stamp

def interactive (compiler : String) : Stamp :=
  ⟨compiler⟩

/-- The stamp of a script that was last changed at a time, in nanoseconds; a time
before the epoch gives none. -/
def script? (compiler : String) (modified : Option Int) : Option Stamp :=
  match modified with
  | some time =>
    if 0 ≤ time then some ⟨compiler ++ "@" ++ Numeral.naturalText time.toNat⟩ else none
  | none => none

end Stamp
end Cache
end LineShell
