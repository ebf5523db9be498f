import LineShell.Json.Basic

/-!
# Reading JSON

A text is read into a document or refused as a whole.  A number is read as 64
bits of digits and a power of ten that multiplies or divides them; one that is
too large is broken, and so is a string with half of a surrogate pair, because a
text may hold such a thing where nobody looks at it.
-/

namespace LineShell
namespace Json

open Text

def skipBlanks (text : List Char) : List Char :=
  text.dropWhile fun c => c == ' ' || c == '\n' || c == '\t' || c == '\r'

/-! ## Numbers -/

/-- The digits of a number that fit into 64 bits, and the power of ten that
multiplies them. -/
structure Digits where
  significand : Nat
  exponent : Int
  full : Bool
  deriving DecidableEq, Repr

namespace Digits

def zero : Digits :=
  ⟨0, 0, false⟩

/-- Takes in digits before the point: one that does not fit, and all after it, only
raise the power. -/
def pushWhole (digits : Digits) (c : Char) : Digits :=
  let next := digits.significand * 10 + (c.toNat - '0'.toNat)
  if digits.full || UInt64.size ≤ next then
    { digits with exponent := digits.exponent + 1, full := true }
  else { digits with significand := next }

/-- Takes in digits after the point: one that does not fit, and all after it, are
dropped. -/
def pushFraction (digits : Digits) (c : Char) : Digits :=
  let next := digits.significand * 10 + (c.toNat - '0'.toNat)
  if digits.full || UInt64.size ≤ next then { digits with full := true }
  else { digits with significand := next, exponent := digits.exponent - 1 }

end Digits

/-- Divides by large powers of ten until the rest of the power is within reach. -/
def shrink : Nat → Float → Int → Float × Int
  | 0, x, exponent => (x, exponent)
  | fuel + 1, x, exponent =>
    if exponent < -308 ∧ x != 0 then
      shrink fuel (x / Float.ofScientific 1 false 308) (exponent + 308)
    else (x, exponent)

/-- The number of a significand and a power of ten, unless it is too large. -/
def scale? (significand : Nat) (exponent : Int) : Option Float :=
  let x := (UInt64.ofNat significand).toFloat
  if exponent < -308 then
    let (x, exponent) := shrink 4 x exponent
    if x == 0 then some x else some (x / Float.ofScientific 1 false (-exponent).toNat)
  else if exponent < 0 then some (x / Float.ofScientific 1 false (-exponent).toNat)
  else if 308 < exponent then (if x == 0 then some x else none)
  else
    let y := x * Float.ofScientific 1 false exponent.toNat
    if y.isInf then none else some y

/-- The value of a number with a fraction or an exponent. -/
def fractional (negative : Bool) (significand : Nat) (exponent : Int) : Json :=
  match scale? significand exponent with
  | some x => float (if negative then -x else x)
  | none => broken

def wholeNumber (negative : Bool) (digits : Digits) : Json :=
  if digits.full then fractional negative digits.significand digits.exponent
  else if !negative then integer digits.significand
  else if digits.significand = 0 ∨ Int64.minValue.toInt.natAbs < digits.significand then
    float (-(UInt64.ofNat digits.significand).toFloat)
  else integer (-(digits.significand : Int))

def exponentBound : Int := Int32.maxValue.toInt

/-- The exponent of a number together with the power of its digits, kept within 32
bits. -/
def addExponent (start written : Int) : Int :=
  max (-exponentBound - 1) (min exponentBound (start + written))

def exponential (negative : Bool) (digits : Digits) (down : Bool) (exponent : Nat) : Json :=
  if exponentBound < exponent then
    if digits.significand ≠ 0 ∧ !down then broken
    else float (if negative then -0.0 else 0.0)
  else
    let written : Int := if down then -(exponent : Int) else exponent
    fractional negative digits.significand (addExponent digits.exponent written)

/-- Reads the exponent of a number, behind its letter. -/
def readExponent? (negative : Bool) (digits : Digits) (text : List Char) :
    Option (Json × List Char) :=
  let (down, text) := match text with
    | '+' :: rest => (false, rest)
    | '-' :: rest => (true, rest)
    | _ => (false, text)
  let written := text.takeWhile Char.isDigit
  (Numeral.read? 10 written).map fun exponent =>
    (exponential negative digits down exponent, text.dropWhile Char.isDigit)

def readFraction? (negative : Bool) (digits : Digits) (text : List Char) :
    Option (Json × List Char) :=
  let written := text.takeWhile Char.isDigit
  if written.isEmpty then none
  else
    let digits := written.foldl Digits.pushFraction { digits with full := false }
    match text.dropWhile Char.isDigit with
    | 'e' :: rest | 'E' :: rest => readExponent? negative digits rest
    | rest => some (fractional negative digits.significand digits.exponent, rest)

def readNumber? (negative : Bool) (text : List Char) : Option (Json × List Char) :=
  let written := text.takeWhile Char.isDigit
  if written.isEmpty ∨ (written.head? = some '0' ∧ 1 < written.length) then none
  else
    let digits := written.foldl Digits.pushWhole .zero
    match text.dropWhile Char.isDigit with
    | '.' :: rest => readFraction? negative digits rest
    | 'e' :: rest | 'E' :: rest => readExponent? negative digits rest
    | rest => some (wholeNumber negative digits, rest)

/-! ## Strings -/

/-- A unit of a string: a character, or half of a surrogate pair. -/
inductive Unit16 where
  | char (c : Char)
  | half (n : Nat)
  deriving DecidableEq, Repr

def readHex? (text : List Char) : Option (Nat × List Char) :=
  if (text.take 4).length = 4 then
    (Numeral.read? 16 (text.take 4)).map fun n => (n, text.drop 4)
  else none

/-- Reads an escape, behind its backslash. -/
def readEscape? : List Char → Option (Unit16 × List Char)
  | '"' :: rest => some (.char '"', rest)
  | '\\' :: rest => some (.char '\\', rest)
  | '/' :: rest => some (.char '/', rest)
  | 'b' :: rest => some (.char (Char.ofNat 8), rest)
  | 'f' :: rest => some (.char (Char.ofNat 12), rest)
  | 'n' :: rest => some (.char '\n', rest)
  | 'r' :: rest => some (.char '\r', rest)
  | 't' :: rest => some (.char '\t', rest)
  | 'u' :: rest =>
    (readHex? rest).map fun (n, rest) =>
      if 0xD800 ≤ n ∧ n ≤ 0xDFFF then (.half n, rest) else (.char (Char.ofNat n), rest)
  | _ => none

/-- Reads the units of a string up to its closing quote. -/
def readUnits? : Nat → List Char → Option (List Unit16 × List Char)
  | 0, _ => none
  | _ + 1, [] => none
  | _ + 1, '"' :: rest => some ([], rest)
  | fuel + 1, '\\' :: rest => do
    let (first, rest) ← readEscape? rest
    let (units, rest) ← readUnits? fuel rest
    pure (first :: units, rest)
  | fuel + 1, c :: rest =>
    if c.toNat < 0x20 then none
    else do
      let (units, rest) ← readUnits? fuel rest
      pure (.char c :: units, rest)

/-- The characters of units, in which halves must come in pairs. -/
def pairUnits? : List Unit16 → Option (List Char)
  | [] => some []
  | .char c :: rest => (pairUnits? rest).map (c :: ·)
  | .half high :: .half low :: rest =>
    if high < 0xDC00 ∧ 0xDC00 ≤ low then
      (pairUnits? rest).map
        (Char.ofNat (0x10000 + (high - 0xD800) * 0x400 + (low - 0xDC00)) :: ·)
    else none
  | .half _ :: _ => none

/-- Reads a string behind its opening quote in a number of steps; it is broken if its
halves do not pair. -/
def readString? (steps : Nat) (text : List Char) : Option (Option String × List Char) :=
  (readUnits? steps text).map fun (units, rest) =>
    ((pairUnits? units).map String.ofList, rest)

/-! ## Documents -/

def readWord? (word : String) (json : Json) (text : List Char) :
    Option (Json × List Char) :=
  if word.toList.isPrefixOf text then some (json, text.drop word.length) else none

/-- An object of fields; a broken name breaks all of it. -/
def ofFields (fields : List (Option String × Json)) : Json :=
  match fields.mapM fun (key, value) => key.map (·, value) with
  | some fields => object fields
  | none => broken

mutual

def readValue? : Nat → List Char → Option (Json × List Char)
  | 0, _ => none
  | fuel + 1, text =>
    match skipBlanks text with
    | 'n' :: rest => readWord? "ull" null rest
    | 't' :: rest => readWord? "rue" (bool true) rest
    | 'f' :: rest => readWord? "alse" (bool false) rest
    | '-' :: rest => readNumber? true rest
    | '"' :: rest =>
      (readString? fuel rest).map fun (s, rest) => ((s.map string).getD broken, rest)
    | '[' :: rest =>
      match skipBlanks rest with
      | ']' :: rest => some (array [], rest)
      | rest => do
        let (items, rest) ← readItems? fuel rest
        pure (array items, rest)
    | '\x7b' :: rest =>
      match skipBlanks rest with
      | '\x7d' :: rest => some (object [], rest)
      | rest => do
        let (fields, rest) ← readFields? fuel rest
        pure (ofFields fields, rest)
    | rest => readNumber? false rest

def readItems? : Nat → List Char → Option (List Json × List Char)
  | 0, _ => none
  | fuel + 1, text => do
    let (item, rest) ← readValue? fuel text
    match skipBlanks rest with
    | ',' :: rest =>
      let (items, rest) ← readItems? fuel rest
      pure (item :: items, rest)
    | ']' :: rest => pure ([item], rest)
    | _ => none

def readFields? : Nat → List Char → Option (List (Option String × Json) × List Char)
  | 0, _ => none
  | fuel + 1, text =>
    match skipBlanks text with
    | '"' :: rest => do
      let (key, rest) ← readString? fuel rest
      match skipBlanks rest with
      | ':' :: rest =>
        let (value, rest) ← readValue? fuel rest
        match skipBlanks rest with
        | ',' :: rest =>
          let (fields, rest) ← readFields? fuel rest
          pure ((key, value) :: fields, rest)
        | '\x7d' :: rest => pure ([(key, value)], rest)
        | _ => none
      | _ => none
    | _ => none

end

/-- The document that a text spells.  Every other step of the reading takes a
character, so twice the number of characters bounds the steps. -/
def read? (text : String) : Option Json :=
  match readValue? (2 * text.length + 2) text.toList with
  | some (json, rest) => if (skipBlanks rest).isEmpty then some json else none
  | none => none

end Json
end LineShell
