import LineShell.Session.Basic

/-!
# Driving a session through an input

The lines of an input are fed to a session until the input ends or a unit asks
for the end.  At the end of the input, lines that still wait get an empty line.
-/

namespace LineShell
namespace Session

open Text

variable {γ ω η : Type}

/-- The lines of an input, each with its line end. -/
def cutLines : Bytes → List Bytes
  | [] => []
  | b :: rest =>
    if b = 10 then [b] :: cutLines rest
    else match cutLines rest with
      | [] => [[b]]
      | line :: others => (b :: line) :: others

/-- What a drive leaves behind: the session and the prompts, the last one
first. -/
structure Driven (γ ω η : Type) where
  session : Session γ ω η
  prompts : List String

def finalCode (session : Session γ ω η) : Int32 :=
  session.lastReturnCode.getD successCode

/-- Feeds lines to a session. -/
def driveLines (setup : Setup γ ω η) (session : Session γ ω η) (prompts : List String) :
    List Bytes → Except ShellError Int32 × Driven γ ω η
  | [] =>
    let prompts := session.prompt :: prompts
    if session.intake.isAccumulating then
      let (result, session) := session.run setup ""
      (result.map fun _ => session.finalCode, ⟨session, prompts⟩)
    else (.ok session.finalCode, ⟨session, prompts⟩)
  | line :: rest =>
    let prompts := session.prompt :: prompts
    match Utf8.decode? line with
    | none =>
      (.error (.io (.generic "stream did not contain valid UTF-8")), ⟨session, prompts⟩)
    | some text =>
      match session.run setup text with
      | (.error e, session) => (.error e, ⟨session, prompts⟩)
      | (.ok true, session) => (.ok session.finalCode, ⟨session, prompts⟩)
      | (.ok false, session) => driveLines setup session prompts rest

def drive (setup : Setup γ ω η) (session : Session γ ω η) (input : Bytes) :
    Except ShellError Int32 × Driven γ ω η :=
  driveLines setup session [] (cutLines input)

end Session
end LineShell
