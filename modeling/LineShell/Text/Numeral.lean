/-!
# Numerals

Whole numbers written with digits in a base.  Reading accepts a sign where the
range allows one, demands at least one digit and refuses a value outside its
range; leading zeros are allowed.  Writing uses no sign but a minus and no
leading zero, unless a width is asked for.
-/

namespace LineShell
namespace Text
namespace Numeral

/-- The value of a digit; the letters a to z, of either case, stand for 10 to
35. -/
def digit? (c : Char) : Option Nat :=
  if '0' ≤ c ∧ c ≤ '9' then some (c.toNat - '0'.toNat)
  else if 'a' ≤ c ∧ c ≤ 'z' then some (c.toNat - 'a'.toNat + 10)
  else if 'A' ≤ c ∧ c ≤ 'Z' then some (c.toNat - 'A'.toNat + 10)
  else none

def digitIn? (base : Nat) (c : Char) : Option Nat :=
  (digit? c).filter (· < base)

def readFrom? (base : Nat) : Nat → List Char → Option Nat
  | value, [] => some value
  | value, c :: rest => do
    let d ← digitIn? base c
    readFrom? base (value * base + d) rest

def read? (base : Nat) (text : List Char) : Option Nat :=
  if text.isEmpty then none else readFrom? base 0 text

/-- The value of digits after an optional plus sign, if it is below a bound. -/
def unsigned? (base bound : Nat) (text : List Char) : Option Nat :=
  let digits := match text with
    | '+' :: rest => rest
    | _ => text
  (read? base digits).filter (· < bound)

/-- The value of digits after an optional sign, if it lies between `-bound` and
`bound - 1`. -/
def signed? (bound : Nat) (text : List Char) : Option Int :=
  let value : Option Int := match text with
    | '-' :: rest => (read? 10 rest).map fun n => -(n : Int)
    | '+' :: rest => (read? 10 rest).map fun n => (n : Int)
    | _ => (read? 10 text).map fun n => (n : Int)
  value.filter fun n => -(bound : Int) ≤ n && n < (bound : Int)

def word32? (text : List Char) : Option UInt32 :=
  (unsigned? 10 UInt32.size text).map UInt32.ofNat

def word64? (text : List Char) : Option Nat :=
  unsigned? 10 UInt64.size text

def int32? (text : List Char) : Option Int32 :=
  (signed? 0x80000000 text).map Int32.ofInt

def int64? (text : List Char) : Option Int64 :=
  (signed? 0x8000000000000000 text).map Int64.ofInt

def natural (n : Nat) : List Char :=
  Nat.toDigits 10 n

/-- The decimal digits of a number, with a minus sign if it is negative. -/
def integer (n : Int) : List Char :=
  if n < 0 then '-' :: natural n.natAbs else natural n.natAbs

/-- The last `width` hexadecimal digits of a number, in small letters. -/
def hex : Nat → Nat → List Char
  | 0, _ => []
  | width + 1, n => hex width (n / 16) ++ [Nat.digitChar (n % 16)]

def naturalText (n : Nat) : String :=
  String.ofList (natural n)

def integerText (n : Int) : String :=
  String.ofList (integer n)

def hexText (width n : Nat) : String :=
  String.ofList (hex width n)

end Numeral
end Text
end LineShell
