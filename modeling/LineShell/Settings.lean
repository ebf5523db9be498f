import LineShell.Cache.UnitCache
import LineShell.Environment
import LineShell.Errors

/-!
# Settings of the shell

The settings that the environment holds: how output is read and decorated, and
what is cached.
-/

namespace LineShell

open Output

/-- The settings. -/
structure Settings where
  encoding : Encoding
  errors : ErrorPolicy
  stdout : Decoration
  stderr : Decoration
  cache : Cache.Policy
  deriving DecidableEq, Repr

namespace Settings

/-- The setting under a name, read in its own way; the report of a failure names
the setting. -/
def read {α : Type} (env : Environment) (name default : String)
    (parse : String → Except TeeError α) : Except ShellError α :=
  match parse (env.getOr name default) with
  | .ok value => .ok value
  | .error e => .error (.config (name ++ ": " ++ e.message))

def decoration (env : Environment) (before after : String) : Decoration :=
  ⟨env.getOr before "", env.getOr after ""⟩

def ofEnvironment (env : Environment) : Except ShellError Settings := do
  let encoding ← read env "INCSH_ENCODING" Encoding.utf8.name Encoding.parse
  let errors ← read env "INCSH_ENCODING_ERRORS" ErrorPolicy.replace.name ErrorPolicy.parse
  pure {
    encoding := encoding
    errors := errors
    stdout := decoration env "INCSH_STDOUT_PREFIX" "INCSH_STDOUT_POSTFIX"
    stderr := decoration env "INCSH_STDERR_PREFIX" "INCSH_STDERR_POSTFIX"
    cache := {
      interactive :=
        env.getBool "INCSH_CACHE_EVERYTHING" Cache.Policy.standard.interactive
      scripts := env.getBool "INCSH_CACHE_SCRIPTS" Cache.Policy.standard.scripts } }

def tee (settings : Settings) : TeeSettings :=
  ⟨settings.encoding, settings.errors, settings.stdout, settings.stderr⟩

def sinkKind (settings : Settings) : SinkKind :=
  .text settings.encoding settings.errors

end Settings
end LineShell
