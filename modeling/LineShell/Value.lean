import LineShell.Bindings
import LineShell.Text.Decimal

/-!
# Values of variables

What a variable can hold, and the text that stands for it in a command line.
-/

namespace LineShell

open Text

/-- A value. -/
inductive Value where
  | text (s : String)
  | integer (n : Int64)
  | float (x : Float)
  | boolean (b : Bool)
  | list (items : List Value)
  | null
  deriving Repr, Inhabited

/-- The variables of a session.  When they were made and last changed is left out:
nothing in the shell reads it. -/
abbrev Context := Bindings String Value

namespace Value

mutual

/-- The text of a value in a command line: the items of a list stand with single
spaces between them, and null is empty. -/
def render : Value → String
  | text s => s
  | integer n => Numeral.integerText n.toInt
  | float x => Decimal.render x
  | boolean b => if b then "true" else "false"
  | list items => renderItems items
  | null => ""

def renderItems : List Value → String
  | [] => ""
  | [item] => render item
  | item :: rest => render item ++ " " ++ renderItems rest

end

/-- The value that an expanded text spells: a number if it is one, and else the
text itself. -/
def ofText (s : String) : Value :=
  match Numeral.int64? s.toList with
  | some n => integer n
  | none => text s

end Value
end LineShell
