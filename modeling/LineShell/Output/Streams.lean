import LineShell.Output.Encoding
import LineShell.Stream

/-!
# Real sinks and the tap on them

Each stream ends in a real sink, which takes bytes as they are or as text of an
encoding.  The device behind it may refuse a write, also in the middle of it.  While
a tap is installed, every write to either stream is first added to one common
capture, and then reaches its real sink with a decoration around it.
-/

namespace LineShell
namespace Output

open Text

/-- How a sink takes bytes: as they are, or decoded and written as text. -/
inductive SinkKind where
  | binary
  | text (encoding : Encoding) (errors : ErrorPolicy)
  deriving DecidableEq, Repr

/-- Why a write fails: the bytes are no text, or the device behind the sink
refuses them. -/
inductive WriteFault where
  | undecodable (fault : DecodeFault)
  | device (message : String)
  deriving DecidableEq, Repr

namespace WriteFault

def message : WriteFault → String
  | undecodable fault => fault.message
  | device text => text

end WriteFault

/-- What stands before and after the payload of a write. -/
structure Decoration where
  before : String
  after : String
  deriving DecidableEq, Repr

namespace Decoration

def none : Decoration :=
  ⟨"", ""⟩

def isEmpty (decoration : Decoration) : Bool :=
  decoration.before.isEmpty && decoration.after.isEmpty

end Decoration

/-- What a device is asked to do. -/
inductive DeviceCall where
  | write (chunk : Bytes)
  | flush
  deriving DecidableEq, Repr

/-- How a device fails in a write: it took a number of bytes of the chunk, and gives
a reason. -/
structure Refusal where
  taken : Nat
  reason : String
  deriving DecidableEq, Repr

/-- The device behind a sink.  Its answers may depend on all calls before, the last
one first and the failed ones among them, so that it may also fail in the middle of a
chunk, or for a while. -/
structure Device where
  refusal? : List DeviceCall → Bytes → Option Refusal
  flushFault? : List DeviceCall → Option String

namespace Device

/-- A device that takes everything. -/
def unfailing : Device :=
  ⟨fun _ _ => none, fun _ => none⟩

/-- A device that answers out of a state, which each call moves on. -/
def ofState {σ : Type} (start : σ) (move : DeviceCall → σ → σ)
    (refusal? : σ → Bytes → Option Refusal) (flushFault? : σ → Option String) :
    Device where
  refusal? calls := refusal? (calls.foldr move start)
  flushFault? calls := flushFault? (calls.foldr move start)

/-- A device with room for a number of bytes, which takes a chunk whole or not at all.
Without any room from the start, it cannot be flushed either. -/
def limited (size : Nat) : Device :=
  ofState size
    (fun call room =>
      match call with
      | .write chunk => if chunk.length ≤ room then room - chunk.length else room
      | .flush => room)
    (fun room chunk => if chunk.length ≤ room then none else some ⟨0, "sink full"⟩)
    (fun _ => if size = 0 then some "flush failed" else none)

end Device

/-- A real sink: its kind, the device behind it, the calls on the device, and what it
took of each chunk, the last one first. -/
structure Sink where
  kind : SinkKind
  device : Device
  calls : List DeviceCall
  chunks : List Bytes

namespace Sink

def unlimited (kind : SinkKind) : Sink :=
  ⟨kind, .unfailing, [], []⟩

def limited (kind : SinkKind) (size : Nat) : Sink :=
  ⟨kind, .limited size, [], []⟩

def written (sink : Sink) : Bytes :=
  sink.chunks.reverse.flatten

/-- Writes bytes to the device; no bytes never reach it. -/
def put (sink : Sink) (bytes : Bytes) : Except WriteFault Unit × Sink :=
  if bytes.isEmpty then (.ok (), sink)
  else
    let took (chunk : Bytes) : Sink :=
      { sink with calls := .write bytes :: sink.calls, chunks := chunk :: sink.chunks }
    match sink.device.refusal? sink.calls bytes with
    | some refusal => (.error (.device refusal.reason), took (bytes.take refusal.taken))
    | none => (.ok (), took bytes)

def writePayload (sink : Sink) (bytes : Bytes) : Except WriteFault Unit × Sink :=
  match sink.kind with
  | .binary => sink.put bytes
  | .text encoding errors =>
    match decodeChars encoding errors bytes with
    | .ok text => sink.put (Utf8.encodeChars text)
    | .error fault => (.error (.undecodable fault), sink)

/-- Writes a payload with a decoration around it.  An empty payload has none, and
the first part that fails ends the write. -/
def writeDecorated (sink : Sink) (decoration : Decoration) (bytes : Bytes) :
    Except WriteFault Unit × Sink :=
  if decoration.isEmpty || bytes.isEmpty then sink.writePayload bytes
  else match sink.put (Utf8.encode decoration.before) with
    | (.error fault, sink) => (.error fault, sink)
    | (.ok (), sink) =>
      match sink.writePayload bytes with
      | (.error fault, sink) => (.error fault, sink)
      | (.ok (), sink) => sink.put (Utf8.encode decoration.after)

/-- What the device answers to a flush. -/
def flush (sink : Sink) : Except WriteFault Unit :=
  match sink.device.flushFault? sink.calls with
  | some reason => .error (.device reason)
  | none => .ok ()

/-- The sink after a flush. -/
def flushed (sink : Sink) : Sink :=
  { sink with calls := .flush :: sink.calls }

end Sink

/-- A tap: the writes that it saw, the last one first, and the decorations of the
two streams. -/
structure Tap where
  writes : List Bytes
  stdout : Decoration
  stderr : Decoration
  deriving DecidableEq, Repr

namespace Tap

/-- The bytes that the tap saw. -/
def captured (tap : Tap) : Bytes :=
  tap.writes.reverse.flatten

def decoration (tap : Tap) : Stream → Decoration
  | .stdout => tap.stdout
  | .stderr => tap.stderr

def record (tap : Tap) (bytes : Bytes) : Tap :=
  { tap with writes := bytes :: tap.writes }

end Tap

/-- The two sinks, the tap if one is installed, and how many were installed and
removed. -/
structure Streams where
  stdout : Sink
  stderr : Sink
  tap : Option Tap
  opened : Nat
  closed : Nat

namespace Streams

def ofSinks (stdout stderr : Sink) : Streams :=
  ⟨stdout, stderr, .none, 0, 0⟩

def sink (streams : Streams) : Stream → Sink
  | .stdout => streams.stdout
  | .stderr => streams.stderr

def setSink (streams : Streams) (stream : Stream) (sink : Sink) : Streams :=
  match stream with
  | .stdout => { streams with stdout := sink }
  | .stderr => { streams with stderr := sink }

/-- Whether a tap is installed. -/
def isTapped (streams : Streams) : Bool :=
  streams.tap.isSome

/-- Writes bytes to a stream, through the tap if one is installed.  The tap keeps
what a sink refuses. -/
def write (streams : Streams) (stream : Stream) (bytes : Bytes) :
    Except WriteFault Unit × Streams :=
  match streams.tap with
  | .none =>
    let (result, sink) := (streams.sink stream).writePayload bytes
    (result, streams.setSink stream sink)
  | some tap =>
    let (result, sink) := (streams.sink stream).writeDecorated (tap.decoration stream) bytes
    (result, { streams.setSink stream sink with tap := some (tap.record bytes) })

/-- What a flush of both sinks answers; the first failure counts. -/
def flush (streams : Streams) : Except WriteFault Unit := do
  streams.stdout.flush
  streams.stderr.flush

/-- The streams after a flush of one sink. -/
def flushedAt (streams : Streams) (stream : Stream) : Streams :=
  streams.setSink stream (streams.sink stream).flushed

/-- The streams after a flush of both sinks.  The second one is reached only if the
first one does not fail. -/
def flushed (streams : Streams) : Streams :=
  match streams.stdout.flush with
  | .ok () => (streams.flushedAt .stdout).flushedAt .stderr
  | .error _ => streams.flushedAt .stdout

def install (streams : Streams) (stdout stderr : Decoration) : Streams :=
  { streams with tap := some ⟨[], stdout, stderr⟩, opened := streams.opened + 1 }

def uninstall (streams : Streams) : Streams :=
  { streams with tap := .none, closed := streams.closed + 1 }

/-- The bytes that the installed tap saw. -/
def captured (streams : Streams) : Bytes :=
  match streams.tap with
  | some tap => tap.captured
  | .none => []

end Streams
end Output
end LineShell
