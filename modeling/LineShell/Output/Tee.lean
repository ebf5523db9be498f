import LineShell.Output.Streams

/-!
# Tees

A tee installs a tap on streams that have none and removes it when it is closed.
What it captured stays with it.  Tees nest like brackets: one may be opened on
the streams of another only after that one was closed.
-/

namespace LineShell
namespace Output

/-- Why a tee, or a name for its settings, is refused. -/
inductive TeeError where
  | alreadyOpen
  | unknownEncoding (name : String)
  | unknownErrorPolicy (name : String)
  | decode (fault : DecodeFault)
  | write (reason : String)
  deriving DecidableEq, Repr

namespace TeeError

def message : TeeError → String
  | alreadyOpen => "a tee is already open on these streams"
  | unknownEncoding name => "unknown encoding: " ++ name
  | unknownErrorPolicy name => "unknown encoding error policy: " ++ name
  | decode fault => fault.message
  | write reason => "stream write failed: " ++ reason

end TeeError

def Encoding.parse (name : String) : Except TeeError Encoding :=
  match Encoding.ofName? name with
  | some encoding => .ok encoding
  | none => .error (.unknownEncoding name)

def ErrorPolicy.parse (name : String) : Except TeeError ErrorPolicy :=
  match ErrorPolicy.ofName? name with
  | some policy => .ok policy
  | none => .error (.unknownErrorPolicy name)

/-- How a tee reads its capture and decorates the streams. -/
structure TeeSettings where
  encoding : Encoding
  errors : ErrorPolicy
  stdout : Decoration
  stderr : Decoration
  deriving DecidableEq, Repr

namespace TeeSettings

/-- No decoration, and the capture is UTF-8 with replacements. -/
def standard : TeeSettings :=
  ⟨.utf8, .replace, .none, .none⟩

end TeeSettings

/-- A tee: how it reads its capture and, once it is closed, the capture. -/
structure Tee where
  encoding : Encoding
  errors : ErrorPolicy
  kept : Option Bytes
  deriving DecidableEq, Repr

namespace Tee

/-- Opens a tee on streams without a tap. -/
def start (streams : Streams) (settings : TeeSettings) : Except TeeError (Tee × Streams) :=
  if streams.isTapped then .error .alreadyOpen
  else .ok (⟨settings.encoding, settings.errors, none⟩,
    streams.install settings.stdout settings.stderr)

def isClosed (tee : Tee) : Bool :=
  tee.kept.isSome

/-- The bytes that the tee captured. -/
def captured (tee : Tee) (streams : Streams) : Bytes :=
  tee.kept.getD streams.captured

/-- The text of captured bytes.  Bytes that the strict policy refuses are
replaced, so that the text is not lost. -/
def readCapture (encoding : Encoding) (errors : ErrorPolicy) (bytes : Bytes) : String :=
  match decode encoding errors bytes with
  | .ok text => text
  | .error _ =>
    match decode encoding .replace bytes with
    | .ok text => text
    | .error _ => ""

/-- The text that the tee captured. -/
def capturedText (tee : Tee) (streams : Streams) : String :=
  readCapture tee.encoding tee.errors (tee.captured streams)

def write (streams : Streams) (stream : Stream) (bytes : Bytes) :
    Except TeeError Unit × Streams :=
  match streams.write stream bytes with
  | (.ok (), streams) => (.ok (), streams)
  | (.error fault, streams) => (.error (.write fault.message), streams)

/-- Removes the tap, keeps the capture and flushes the sinks, whose failures count for
nothing here; closing again changes nothing. -/
def close (tee : Tee) (streams : Streams) : Tee × Streams :=
  if tee.isClosed then (tee, streams)
  else ({ tee with kept := some streams.captured }, streams.uninstall.flushed)

end Tee

/-- Streams with the tees that were opened on them and are still held, the
innermost first. -/
structure TeeStack where
  streams : Streams
  held : List Tee

namespace TeeStack

/-- Opens a tee inside the held ones. -/
def start (stack : TeeStack) (settings : TeeSettings) : Except TeeError TeeStack :=
  match Tee.start stack.streams settings with
  | .ok (tee, streams) => .ok ⟨streams, tee :: stack.held⟩
  | .error e => .error e

/-- Closes the innermost tee and keeps hold of it. -/
def close (stack : TeeStack) : TeeStack :=
  match stack.held with
  | [] => stack
  | tee :: outer =>
    let (tee, streams) := tee.close stack.streams
    ⟨streams, tee :: outer⟩

/-- Lets go of the innermost tee, which closes it. -/
def drop (stack : TeeStack) : TeeStack :=
  match stack.held with
  | [] => stack
  | tee :: outer => ⟨(tee.close stack.streams).2, outer⟩

def write (stack : TeeStack) (stream : Stream) (bytes : Bytes) :
    Except WriteFault Unit × TeeStack :=
  let (result, streams) := stack.streams.write stream bytes
  (result, { stack with streams := streams })

end TeeStack
end Output
end LineShell
