import LineShell.CommandLine.Grammar
import LineShell.CommandLine.Report

/-!
# How the program ends

What the program prints last, and its exit code.  A return code that does not fit
into a byte becomes the largest one.  Failures are told on the standard error
stream, or as a document on the standard output stream where documents were asked
for; the failure of a unit was told by the session.
-/

namespace LineShell
namespace CommandLine

open Text

/-- The last texts for the two streams and the exit code. -/
structure Ending where
  stdout : String
  stderr : String
  code : UInt8
  deriving DecidableEq, Repr

def exitCode (code : Int32) : UInt8 :=
  if 0 ≤ code.toInt ∧ code.toInt ≤ 255 then UInt8.ofNat code.toInt.toNat else 255

namespace Ending

def ofResult (format : Format) : Except ShellError String → Ending
  | .ok text => ⟨text, "", 0⟩
  | .error (.command (.exit code)) => ⟨"", "", exitCode code⟩
  | .error e =>
    match format with
    | .json => ⟨errorReport format e ++ "\n", "", 1⟩
    | .text => ⟨"", "Error: " ++ errorReport format e ++ "\n", 1⟩

def optionLine (parameter : Parameter) : String :=
  let short := match parameter.short with
    | some c => "-" ++ String.singleton c ++ ", "
    | none => "    "
  let value := if parameter.kind.takesValue then " <VALUE>" else ""
  "  " ++ short ++ "--" ++ parameter.long ++ value ++ "\n"

def help : String :=
  "Usage: incsh [OPTIONS] <COMMAND>\n\nCommands:\n" ++
    String.join (Level.root.children.map fun child => "  " ++ child.1 ++ "\n") ++
    "\nOptions:\n" ++ String.join (Level.root.options.map optionLine) ++
    "  -h, --help\n  -V, --version\n"

def reason : Usage → String
  | .displayHelp | .displayVersion | .displayHelpOnMissing => ""
  | .missingSubcommand => "a command is missing"
  | .missingRequired => "a required argument is missing"
  | .invalidSubcommand => "unknown command"
  | .unknownArgument => "unexpected argument"
  | .tooManyValues => "unexpected value"
  | .invalidValue => "a value is missing"
  | .valueValidation => "invalid value"
  | .argumentConflict => "an argument cannot be used twice"

def ofUsage : Usage → Ending
  | .displayHelp => ⟨help, "", 0⟩
  | .displayVersion => ⟨"incsh 0.1.0\n", "", 0⟩
  | .displayHelpOnMissing => ⟨"", help, 2⟩
  | usage => ⟨"", "error: " ++ reason usage ++ "\n", 2⟩

end Ending
end CommandLine
end LineShell
