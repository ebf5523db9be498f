import LineShell.Text.Numeral

/-!
# Decimal texts of floating-point numbers

A finite number is a whole number times a power of two.  Its shortest decimal is
the one with the fewest digits among those that lie between the middles to the
neighbouring numbers; of two such decimals the nearer one is taken.  A decimal
with a fixed number of places is the exact value rounded, a half to the even
neighbour.
-/

namespace LineShell
namespace Text

/-- The number `mantissa * 2 ^ exponent`, and whether the number below it is only
half as far away as the one above. -/
structure Dyadic where
  mantissa : Nat
  exponent : Int
  narrowBelow : Bool
  deriving DecidableEq, Repr

/-- What a floating-point number is, apart from its sign. -/
inductive Magnitude where
  | nan
  | infinite
  | finite (value : Dyadic)
  deriving DecidableEq, Repr

namespace Magnitude

def fractionSize : Nat := 1 <<< 52

def ofFloat (x : Float) : Magnitude :=
  let bits := x.toBits.toNat
  let exponent : Nat := bits / fractionSize % 2048
  let fraction : Nat := bits % fractionSize
  if exponent = 2047 then (if fraction = 0 then infinite else nan)
  else if exponent = 0 then finite ⟨fraction, -1074, false⟩
  else finite ⟨fraction + fractionSize, (exponent : Int) - 1075, fraction = 0 && 1 < exponent⟩

end Magnitude

/-- Whether the sign of a floating-point number is a minus. -/
def isNegative (x : Float) : Bool :=
  0x8000000000000000 ≤ x.toBits

/-- The number `digits * 10 ^ exponent`. -/
structure Decimal where
  digits : Nat
  exponent : Int
  deriving DecidableEq, Repr

namespace Decimal

/-- Which of two equally near decimals is taken. -/
inductive Tie where
  | toEven
  | up
  deriving DecidableEq, Repr

/-- The numerator of `x * 2 ^ two / 10 ^ ten`. -/
def numerator (x : Nat) (two ten : Int) : Nat :=
  x * Nat.pow 2 two.toNat * Nat.pow 10 (-ten).toNat

/-- The denominator of `x * 2 ^ two / 10 ^ ten`. -/
def denominator (two ten : Int) : Nat :=
  Nat.pow 2 (-two).toNat * Nat.pow 10 ten.toNat

/-- Whether a number is below a power of ten. -/
def isBelow (x : Nat) (two ten : Int) : Bool :=
  numerator x two ten < denominator two ten

/-- The number of digits before the point of a positive number; it is negative
for a number whose first digit comes later. -/
def magnitude (value : Dyadic) : Int :=
  let guess := ((value.mantissa.log2 : Int) + value.exponent) * 30103 / 100000
  if isBelow value.mantissa value.exponent guess then guess
  else if isBelow value.mantissa value.exponent (guess + 1) then guess + 1
  else guess + 2

def roundQuotient (tie : Tie) (num den : Nat) : Nat :=
  let below := num / den
  let rest := 2 * (num % den)
  if rest < den then below
  else if den < rest then below + 1
  else match tie with
    | .up => below + 1
    | .toEven => if below % 2 = 0 then below else below + 1

/-- The decimal with a number of digits that reads back as a positive number. -/
def withDigits? (tie : Tie) (value : Dyadic) (count : Nat) : Option Decimal :=
  let ten := magnitude value - count
  let two := value.exponent - 2
  let den := denominator two ten
  let here := numerator (4 * value.mantissa) two ten
  let low := numerator (4 * value.mantissa - if value.narrowBelow then 1 else 2) two ten
  let high := numerator (4 * value.mantissa + 2) two ten
  let below := here / den
  let inside (n : Nat) : Bool :=
    if value.mantissa % 2 = 0 then low ≤ n * den && n * den ≤ high
    else low < n * den && n * den < high
  let digits? :=
    match inside below, inside (below + 1) with
    | true, true => some (roundQuotient tie here den)
    | true, false => some below
    | false, true => some (below + 1)
    | false, false => none
  digits?.map fun digits =>
    if digits % 10 = 0 then ⟨digits / 10, ten + 1⟩ else ⟨digits, ten⟩

/-- The shortest decimal that reads back as a number; seventeen digits are always
enough. -/
def shortest (tie : Tie) (value : Dyadic) : Decimal :=
  if value.mantissa = 0 then ⟨0, 0⟩
  else ((List.range 17).findSome? fun n => withDigits? tie value (n + 1)).getD ⟨0, 0⟩

/-- Digits with a point before the last `places` ones. -/
def withPoint (places : Nat) (digits : List Char) : List Char :=
  let padded := List.replicate (places + 1 - digits.length) '0' ++ digits
  let whole := padded.take (padded.length - places)
  if places = 0 then whole else whole ++ '.' :: padded.drop (padded.length - places)

def positional (decimal : Decimal) : List Char :=
  if 0 ≤ decimal.exponent then
    Numeral.natural (decimal.digits * Nat.pow 10 decimal.exponent.toNat)
  else withPoint (-decimal.exponent).toNat (Numeral.natural decimal.digits)

/-- The text of a number with a minus sign where there is one, and words for what
is no number. -/
def signed (x : Float) (finite : Dyadic → List Char) : String :=
  let sign := if isNegative x then ['-'] else []
  match Magnitude.ofFloat x with
  | .nan => "NaN"
  | .infinite => String.ofList (sign ++ "inf".toList)
  | .finite value => String.ofList (sign ++ finite value)

/-- The shortest text of a number, without an exponent. -/
def render (x : Float) : String :=
  signed x fun value => positional (shortest .up value)

/-- The text of a number with a fixed number of places. -/
def renderPlaces (places : Nat) (x : Float) : String :=
  signed x fun value =>
    let num := numerator value.mantissa value.exponent (-(places : Int))
    let den := denominator value.exponent (-(places : Int))
    withPoint places (Numeral.natural (roundQuotient .toEven num den))

end Decimal
end Text
end LineShell
