import LineShell.Text.Decimal

/-!
# JSON documents and their printed form

A document is printed with two blanks of indentation for each level.  Numbers
with a fraction are written with the fewest digits that read back, and with an
exponent where they are very large or very small; what is no finite number is
written as null.
-/

namespace LineShell

open Text

/-- A JSON document.  A string or number that is well formed but stands for
nothing, such as half of a surrogate pair, is broken. -/
inductive Json where
  | null
  | bool (b : Bool)
  | integer (n : Int)
  | float (x : Float)
  | string (s : String)
  | array (items : List Json)
  | object (fields : List (String × Json))
  | broken

namespace Json

def controlEscape (c : Char) : List Char :=
  match c.toNat with
  | 8 => "\\b".toList
  | 9 => "\\t".toList
  | 10 => "\\n".toList
  | 12 => "\\f".toList
  | 13 => "\\r".toList
  | n => "\\u".toList ++ Numeral.hex 4 n

def escape (c : Char) : List Char :=
  if c = '"' then "\\\"".toList
  else if c = '\\' then "\\\\".toList
  else if c.toNat < 0x20 then controlEscape c
  else [c]

def quote (s : String) : List Char :=
  '"' :: s.toList.flatMap escape ++ ['"']

/-- Digits with a point after the first one, and an exponent with its sign. -/
def scientific (digits : List Char) (exponent : Int) : List Char :=
  let mantissa := match digits with
    | first :: rest => if rest.isEmpty then [first] else first :: '.' :: rest
    | [] => []
  let plus := if exponent < 0 then [] else ['+']
  mantissa ++ 'e' :: plus ++ Numeral.integer exponent

/-- A positive decimal: without an exponent from five zeros after the point up to
sixteen digits before it. -/
def decimal (d : Decimal) : List Char :=
  let digits := Numeral.natural d.digits
  let point := (digits.length : Int) + d.exponent
  if 0 ≤ d.exponent ∧ point ≤ 16 then
    digits ++ List.replicate d.exponent.toNat '0' ++ ".0".toList
  else if -5 < point ∧ point ≤ 16 then d.positional
  else scientific digits (point - 1)

def number (x : Float) : List Char :=
  let sign := if isNegative x then ['-'] else []
  match Magnitude.ofFloat x with
  | .finite value =>
    if value.mantissa = 0 then sign ++ "0.0".toList
    else sign ++ decimal (Decimal.shortest .toEven value)
  | _ => "null".toList

def newline (level : Nat) : List Char :=
  '\n' :: List.replicate (2 * level) ' '

mutual

def chars (level : Nat) : Json → List Char
  | null | broken => "null".toList
  | bool b => (if b then "true" else "false").toList
  | integer n => Numeral.integer n
  | float x => number x
  | string s => quote s
  | array [] => "[]".toList
  | array (item :: rest) =>
    '[' :: newline (level + 1) ++ chars (level + 1) item ++ itemChars (level + 1) rest ++
      newline level ++ [']']
  | object [] => ['\x7b', '\x7d']
  | object ((key, value) :: rest) =>
    '\x7b' :: newline (level + 1) ++ quote key ++ ": ".toList ++
      chars (level + 1) value ++ fieldChars (level + 1) rest ++ newline level ++ ['\x7d']

def itemChars (level : Nat) : List Json → List Char
  | [] => []
  | item :: rest => ',' :: newline level ++ chars level item ++ itemChars level rest

def fieldChars (level : Nat) : List (String × Json) → List Char
  | [] => []
  | (key, value) :: rest =>
    ',' :: newline level ++ quote key ++ ": ".toList ++ chars level value ++
      fieldChars level rest

end

def render (json : Json) : String :=
  String.ofList (chars 0 json)

def ofOption {α : Type} (write : α → Json) : Option α → Json
  | none => null
  | some a => write a

end Json
end LineShell
