import LineShell.Cache.Artifact
import LineShell.CompiledUnit
import LineShell.Output.Tee

/-!
# Errors of the shell

Everything that can end a command, with the report of each cause.
-/

namespace LineShell

open Text

/-- Why the history fails. -/
inductive StorageError where
  | database (reason : String)
  | notInitialized
  | migration (reason : String)
  | serialization (reason : String)
  deriving DecidableEq, Repr

namespace StorageError

def message : StorageError → String
  | database reason => "database error: " ++ reason
  | notInitialized => "history database not initialized"
  | migration reason => "migration error: " ++ reason
  | serialization reason => "serialization error: " ++ reason

end StorageError

/-- Why input or output fails. -/
inductive IoError where
  | fileNotFound (path : String)
  | readFailed (path reason : String)
  | generic (reason : String)
  deriving DecidableEq, Repr

namespace IoError

def message : IoError → String
  | fileNotFound path => "file not found: " ++ path
  | readFailed path reason => "failed to read file: " ++ path ++ ": " ++ reason
  | generic reason => "I/O error: " ++ reason

end IoError

/-- Why a command fails by itself. -/
inductive CommandError where
  | invalidArgument (reason : String)
  | executionFailed (reason : String)
  | exit (code : Int32)
  deriving DecidableEq, Repr

namespace CommandError

def message : CommandError → String
  | invalidArgument reason => "invalid argument: " ++ reason
  | executionFailed reason => "command execution failed: " ++ reason
  | exit code => "exited with status " ++ Numeral.integerText code.toInt

end CommandError

/-- Why a command of the shell ends without success. -/
inductive ShellError where
  | compile (e : CompileError)
  | cache (e : Cache.CacheError)
  | tee (e : Output.TeeError)
  | storage (e : StorageError)
  | io (e : IoError)
  | command (e : CommandError)
  | invalidState (reason : String)
  | config (reason : String)
  deriving DecidableEq, Repr

namespace ShellError

def message : ShellError → String
  | compile e => "compile error: " ++ e.message
  | cache e => "cache error: " ++ e.message
  | tee e => "tee error: " ++ e.message
  | storage e => "storage error: " ++ e.message
  | io e => "I/O error: " ++ e.message
  | command e => "command error: " ++ e.message
  | invalidState reason => "invalid state: " ++ reason
  | config reason => "configuration error: " ++ reason

end ShellError
end LineShell
