import LineShell.Text.Utf8

/-!
# Compiled units

A compiler turns a source into a unit: the code, with the source, the mode and
the file name that it came from.  A compiler may find that a source stops too
early, that it is malformed at a place, or that it fails for a reason of its own.
-/

namespace LineShell

/-- How a source is compiled: as one statement typed at the prompt, or as a whole
script. -/
inductive Mode where
  | single
  | exec
  deriving DecidableEq, Repr

/-- Code with the source that it came from. -/
structure CompiledUnit where
  source : String
  mode : Mode
  filename : String
  code : Bytes
  deriving DecidableEq, Repr

/-- Why a source does not compile. -/
inductive CompileError where
  | incomplete (message : String)
  | malformed (message : String) (line column : Nat)
  | other (message : String)
  deriving DecidableEq, Repr

namespace CompileError

def isIncomplete : CompileError → Bool
  | incomplete _ => true
  | _ => false

def message : CompileError → String
  | incomplete text => "incomplete input: " ++ text
  | malformed text line column =>
    "syntax error at line " ++ line.repr ++ ", column " ++ column.repr ++ ": " ++ text
  | other text => text

end CompileError

def stdinName : String := "<stdin>"

end LineShell
