import LineShell.Stream

/-!
# Programs of the line language

A program is a list of statements.  A statement's words are made of parts that
are either literal text or a variable, so expanding a word joins the texts of
its parts.  The only statement with a body is a repetition.
-/

namespace LineShell
namespace Language

/-- A part of a word: literal text, or a variable that stands for its value. -/
inductive Part where
  | lit (text : String)
  | var (name : String)
  deriving DecidableEq, Repr

/-- A word: parts that are joined. -/
abbrev Word := List Part

/-- A statement. -/
inductive Stmt where
  /-- Writes a line of words. -/
  | echo (stream : Stream) (words : List Word)
  /-- Gives a variable the value that the words spell. -/
  | set (name : String) (words : List Word)
  /-- Forgets a variable. -/
  | unset (name : String)
  /-- Changes the directory, to the home directory if none is given. -/
  | cd (dir : Option Word)
  /-- Does nothing. -/
  | succeed
  /-- Leaves the return code of a failure. -/
  | markFailed
  /-- Ends the session with a return code. -/
  | exit (code : Option Int32)
  /-- Stops with a message for the user. -/
  | fail (words : List Word)
  /-- Stops with a fault. -/
  | abort (words : List Word)
  /-- Runs its body a number of times. -/
  | loop (count : UInt32) (body : List Stmt)
  deriving Repr

/-- A program: statements in order. -/
abbrev Program := List Stmt

def Part.literal? : Part → Option String
  | .lit text => some text
  | .var _ => none

def Word.literal? (word : Word) : Option String :=
  (word.mapM Part.literal?).map String.join

/-- Whether a name may begin with a character: a letter of ASCII or an
underscore. -/
def isNameStart (c : Char) : Bool :=
  c.isAlpha || c == '_'

/-- Whether a character may stand in a name after its beginning: a letter or
digit of ASCII or an underscore. -/
def isNameChar (c : Char) : Bool :=
  c.isAlphanum || c == '_'

def isName (text : String) : Bool :=
  match text.toList with
  | [] => false
  | c :: rest => isNameStart c && rest.all isNameChar

end Language
end LineShell
