import LineShell.Text.Numeral

/-!
# The grammar of the command line

The commands form a tree.  Each has options, perhaps an operand, and perhaps
further commands below it; some options are known to every command.
-/

namespace LineShell
namespace CommandLine

/-- What an option or operand sets. -/
inductive Key where
  | dbPath
  | cacheDir
  | noHistory
  | verbose
  | format
  | limit
  | yes
  | file
  | needle
  deriving DecidableEq, Repr

/-- What an option does: it stands alone, or takes a value of a kind. -/
inductive Kind where
  | flag
  | path
  | text
  | count
  deriving DecidableEq, Repr

namespace Kind

def takesValue : Kind → Bool
  | path | text | count => true
  | flag => false

end Kind

/-- An option or operand: its names, the variable of the environment that stands
in for it and the value that it has otherwise. -/
structure Parameter where
  key : Key
  kind : Kind
  short : Option Char
  long : String
  envName : Option String
  default : Option String
  deriving DecidableEq, Repr

/-- A place in the tree of commands. -/
inductive Level where
  | root
  | repl
  | run
  | history
  | historyList
  | historySearch
  | historyClear
  | cache
  | cacheClear
  | status
  deriving DecidableEq, Repr

def globals : List Parameter :=
  [⟨.cacheDir, .path, none, "cache-dir", some "INCSH_CACHE_DIR", none⟩,
   ⟨.noHistory, .flag, none, "no-history", none, none⟩,
   ⟨.verbose, .flag, some 'v', "verbose", none, none⟩,
   ⟨.format, .text, none, "format", none, some "text"⟩]

def limitOption : Parameter :=
  ⟨.limit, .count, some 'n', "limit", none, some "20"⟩

namespace Level

def own : Level → List Parameter
  | root => [⟨.dbPath, .path, some 'd', "db-path", some "INCSH_DB_PATH", none⟩]
  | historyList | historySearch => [limitOption]
  | historyClear => [⟨.yes, .flag, some 'y', "yes", none, none⟩]
  | _ => []

def options (level : Level) : List Parameter :=
  level.own ++ globals

def operand? : Level → Option Parameter
  | run => some ⟨.file, .path, none, "FILE", none, none⟩
  | historySearch => some ⟨.needle, .text, none, "NEEDLE", none, none⟩
  | _ => none

/-- The commands below a command, by their names. -/
def children : Level → List (String × Level)
  | root =>
    [("repl", repl), ("shell", repl), ("run", run), ("history", history),
     ("cache", cache), ("status", status)]
  | history =>
    [("list", historyList), ("ls", historyList), ("search", historySearch),
     ("clear", historyClear)]
  | cache => [("clear", cacheClear)]
  | _ => []

def needsChild (level : Level) : Bool :=
  !level.children.isEmpty

end Level

/-- What a word means where a command is expected. -/
inductive Word where
  | help
  | command (level : Level)
  deriving DecidableEq, Repr

def Level.word? (level : Level) (word : String) : Option Word :=
  match level.children.lookup word with
  | some child => some (.command child)
  | none => if level.needsChild ∧ word = "help" then some .help else none

/-- Why a command line is not obeyed: it asks for a text, or it breaks the
grammar. -/
inductive Usage where
  | displayHelp
  | displayVersion
  | displayHelpOnMissing
  | missingSubcommand
  | missingRequired
  | invalidSubcommand
  | unknownArgument
  | tooManyValues
  | invalidValue
  | valueValidation
  | argumentConflict
  deriving DecidableEq, Repr

end CommandLine
end LineShell
