/-!
# Blank characters

The characters with the property White_Space, and the removal of such characters
from the ends of a text.
-/

namespace LineShell
namespace Text

/-- Whether a character has the property White_Space. -/
def isBlank (c : Char) : Bool :=
  let n := c.toNat
  (9 ≤ n && n ≤ 13) || n == 0x20 || n == 0x85 || n == 0xA0 || n == 0x1680 ||
    (0x2000 ≤ n && n ≤ 0x200A) || n == 0x2028 || n == 0x2029 || n == 0x202F ||
    n == 0x205F || n == 0x3000

def trimStart (text : List Char) : List Char :=
  text.dropWhile isBlank

def trimEnd (text : List Char) : List Char :=
  (text.reverse.dropWhile isBlank).reverse

def trim (text : List Char) : List Char :=
  trimEnd (trimStart text)

/-- A name as names are compared: without blanks around it and with the letters
A to Z made small. -/
def foldName (name : String) : String :=
  String.ofList ((trim name.toList).map Char.toLower)

end Text
end LineShell
