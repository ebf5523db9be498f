import LineShell.Proofs.Output.Tees

/-!
# A tap on each stream

The streams of a program need not have one common tap: each stream may have a tap of its
own, which adds to a buffer that it shares with the tee and with the other tap.  This
machine answers every call as the one with the common tap does.  For buffers are never
used twice, so the open one is the last one, and the taps of both streams lead to it.
-/

namespace LineShell
namespace Output

open Text

/-- The tap of one stream: the number of the buffer that it adds to, and the decoration of
the stream. -/
structure SlotTap where
  buffer : Nat
  decoration : Decoration

structure Slot where
  sink : Sink
  tap : Option SlotTap

/-- Two streams with a tap of their own each, the counts of tees, and all buffers that
there ever were, the oldest first. -/
structure SlotStreams where
  stdout : Slot
  stderr : Slot
  opened : Nat
  closed : Nat
  buffers : List Bytes

namespace SlotStreams

def ofSinks (stdout stderr : Sink) : SlotStreams :=
  ⟨⟨stdout, none⟩, ⟨stderr, none⟩, 0, 0, []⟩

def slot (streams : SlotStreams) : Stream → Slot
  | .stdout => streams.stdout
  | .stderr => streams.stderr

def setSlot (streams : SlotStreams) (stream : Stream) (slot : Slot) : SlotStreams :=
  match stream with
  | .stdout => { streams with stdout := slot }
  | .stderr => { streams with stderr := slot }

def isTapped (streams : SlotStreams) : Bool :=
  streams.stdout.tap.isSome || streams.stderr.tap.isSome

/-- Writes bytes to a stream; where it has a tap, they are first added to the buffer. -/
def write (streams : SlotStreams) (stream : Stream) (bytes : Bytes) :
    Except WriteFault Unit × SlotStreams :=
  let slot := streams.slot stream
  match slot.tap with
  | none =>
    let (result, sink) := slot.sink.writePayload bytes
    (result, streams.setSlot stream { slot with sink := sink })
  | some tap =>
    let (result, sink) := slot.sink.writeDecorated tap.decoration bytes
    (result, { streams.setSlot stream { slot with sink := sink } with
      buffers := streams.buffers.modify tap.buffer (· ++ bytes) })

def flush (streams : SlotStreams) : Except WriteFault Unit := do
  streams.stdout.sink.flush
  streams.stderr.sink.flush

def flushedAt (streams : SlotStreams) (stream : Stream) : SlotStreams :=
  let slot := streams.slot stream
  streams.setSlot stream { slot with sink := slot.sink.flushed }

def flushed (streams : SlotStreams) : SlotStreams :=
  match streams.stdout.sink.flush with
  | .ok () => (streams.flushedAt .stdout).flushedAt .stderr
  | .error _ => streams.flushedAt .stdout

def flushOnly (streams : SlotStreams) : Option Stream → Except WriteFault Unit
  | none => streams.flush
  | some stream => (streams.slot stream).sink.flush

def flushedOnly (streams : SlotStreams) : Option Stream → SlotStreams
  | none => streams.flushed
  | some stream => streams.flushedAt stream

/-- Installs a tap on each stream, both over a new buffer. -/
def install (streams : SlotStreams) (stdout stderr : Decoration) : SlotStreams where
  stdout := { streams.stdout with tap := some ⟨streams.buffers.length, stdout⟩ }
  stderr := { streams.stderr with tap := some ⟨streams.buffers.length, stderr⟩ }
  opened := streams.opened + 1
  closed := streams.closed
  buffers := streams.buffers ++ [[]]

def uninstall (streams : SlotStreams) : SlotStreams :=
  { streams with
    stdout := { streams.stdout with tap := none }
    stderr := { streams.stderr with tap := none }
    closed := streams.closed + 1 }

end SlotStreams

/-- A tee that knows the number of its buffer. -/
structure SlotTee where
  encoding : Encoding
  errors : ErrorPolicy
  buffer : Nat
  closed : Bool

namespace SlotTee

def captured (tee : SlotTee) (streams : SlotStreams) : Bytes :=
  streams.buffers.getD tee.buffer []

def close (tee : SlotTee) (streams : SlotStreams) : SlotTee × SlotStreams :=
  if tee.closed then (tee, streams)
  else ({ tee with closed := true }, streams.uninstall.flushed)

end SlotTee

structure SlotStack where
  streams : SlotStreams
  held : List SlotTee

namespace SlotStack

def ofSinks (stdout stderr : Sink) : SlotStack :=
  ⟨.ofSinks stdout stderr, []⟩

def start (stack : SlotStack) (settings : TeeSettings) : Except TeeError SlotStack :=
  if stack.streams.isTapped then .error .alreadyOpen
  else .ok
    ⟨stack.streams.install settings.stdout settings.stderr,
      ⟨settings.encoding, settings.errors, stack.streams.buffers.length, false⟩ ::
        stack.held⟩

def close (stack : SlotStack) : SlotStack :=
  match stack.held with
  | [] => stack
  | tee :: outer =>
    let (tee, streams) := tee.close stack.streams
    ⟨streams, tee :: outer⟩

def drop (stack : SlotStack) : SlotStack :=
  match stack.held with
  | [] => stack
  | tee :: outer => ⟨(tee.close stack.streams).2, outer⟩

end SlotStack

/-- What a write through a tee answers. -/
def teeResult : Except WriteFault Unit → Except TeeError Unit
  | .ok () => .ok ()
  | .error fault => .error (.write fault.message)

namespace TeeCall

def performSlots (stack : SlotStack) : TeeCall → TeeReply × SlotStack
  | start settings =>
    match stack.start settings with
    | .ok next => (.tee (.ok ()), next)
    | .error e => (.tee (.error e), stack)
  | write route stream bytes =>
    let (result, streams) := stack.streams.write stream bytes
    (match route with
      | .streams => .sink result
      | .tee => .tee (teeResult result),
      { stack with streams := streams })
  | flush only =>
    (.sink (stack.streams.flushOnly only),
      { stack with streams := stack.streams.flushedOnly only })
  | close => (.done, stack.close)
  | drop => (.done, stack.drop)

end TeeCall

def SlotStack.after (stack : SlotStack) (calls : List TeeCall) : SlotStack :=
  calls.foldl (fun stack call => (call.performSlots stack).2) stack

/-! ## The two machines in step -/

/-- A closed tee whose buffer holds what the other one kept. -/
structure Kept (buffers : List Bytes) (slot : SlotTee) (tee : Tee) : Prop where
  closed : slot.closed = true
  buffer : ∃ bytes, buffers[slot.buffer]? = some bytes ∧
    tee = ⟨slot.encoding, slot.errors, some bytes⟩

/-- A new buffer, and what is written to the last one, does not touch older ones. -/
theorem Kept.append
    {buffers : List Bytes} {slot : SlotTee} {tee : Tee} (hkept : Kept buffers slot tee)
    (more : List Bytes) : Kept (buffers ++ more) slot tee := by
  obtain ⟨bytes, hbuffer, htee⟩ := hkept.buffer
  refine ⟨hkept.closed, bytes, ?_, htee⟩
  rw [List.getElem?_append_left (List.getElem?_eq_some_iff.mp hbuffer).1]
  exact hbuffer

/-- The same sinks, counts and taps, one on each stream or a common one. -/
structure SameStreams (slots : SlotStreams) (streams : Streams) (tap : Stream → Option SlotTap) :
    Prop where
  sink_eq : ∀ stream, (slots.slot stream).sink = streams.sink stream
  tap_eq : ∀ stream, (slots.slot stream).tap = tap stream
  opened_eq : slots.opened = streams.opened
  closed_eq : slots.closed = streams.closed

/-- Without a tap all buffers belong to closed tees; with one, the last buffer is that of the
innermost tee, and both taps lead to it. -/
inductive InStep : SlotStack → TeeStack → Prop where
  | idle {slots : SlotStreams} {streams : Streams} {slotHeld : List SlotTee}
      {held : List Tee} :
      SameStreams slots streams (fun _ => none) → streams.tap = none →
      List.Forall₂ (Kept slots.buffers) slotHeld held →
      InStep ⟨slots, slotHeld⟩ ⟨streams, held⟩
  | within {slots : SlotStreams} {streams : Streams} {slotHeld : List SlotTee}
      {held : List Tee} {tap : Tap} {older : List Bytes} {encoding : Encoding}
      {errors : ErrorPolicy} :
      SameStreams slots streams (fun stream => some ⟨older.length, tap.decoration stream⟩) →
      streams.tap = some tap → slots.buffers = older ++ [tap.captured] →
      List.Forall₂ (Kept older) slotHeld held →
      InStep ⟨slots, ⟨encoding, errors, older.length, false⟩ :: slotHeld⟩
        ⟨streams, ⟨encoding, errors, none⟩ :: held⟩

theorem inStep_ofSinks (stdout stderr : Sink) :
    InStep (.ofSinks stdout stderr) (.ofSinks stdout stderr) := by
  refine .idle ⟨?_, ?_, rfl, rfl⟩ rfl .nil
  · intro stream
    cases stream <;> rfl
  · intro stream
    cases stream <;> rfl

namespace SlotStreams

theorem slot_setSlot (slots : SlotStreams) (stream other : Stream) (slot : Slot) :
    (slots.setSlot stream slot).slot other =
      if other = stream then slot else slots.slot other := by
  cases stream <;> cases other <;> rfl

end SlotStreams

variable {slots : SlotStreams} {streams : Streams} {tap : Stream → Option SlotTap}

theorem SameStreams.set
    (hsame : SameStreams slots streams tap) (stream : Stream) (sink : Sink) :
    SameStreams (slots.setSlot stream ⟨sink, tap stream⟩) (streams.setSink stream sink)
      tap := by
  constructor
  · intro other
    rw [SlotStreams.slot_setSlot, Streams.sink_setSink]
    split_ifs
    · rfl
    · exact hsame.sink_eq other
  · intro other
    rw [SlotStreams.slot_setSlot]
    split_ifs with hother
    · rw [hother]
    · exact hsame.tap_eq other
  · cases stream <;> exact hsame.opened_eq
  · cases stream <;> exact hsame.closed_eq

/-- Buffers and the common tap are compared elsewhere. -/
theorem SameStreams.withCapture
    (hsame : SameStreams slots streams tap) (buffers : List Bytes) (common : Option Tap) :
    SameStreams { slots with buffers := buffers } { streams with tap := common } tap := by
  constructor
  · intro stream
    have hsink := hsame.sink_eq stream
    cases stream <;> exact hsink
  · intro stream
    have htap := hsame.tap_eq stream
    cases stream <;> exact htap
  · exact hsame.opened_eq
  · exact hsame.closed_eq

theorem SameStreams.install
    (hsame : SameStreams slots streams fun _ => none) (stdout stderr : Decoration) :
    SameStreams (slots.install stdout stderr) (streams.install stdout stderr)
      fun stream => some ⟨slots.buffers.length, Tap.decoration ⟨[], stdout, stderr⟩ stream⟩ := by
  constructor
  · intro stream
    rw [Streams.install_sink, ← hsame.sink_eq]
    cases stream <;> rfl
  · intro stream
    cases stream <;> rfl
  · exact congrArg (· + 1) hsame.opened_eq
  · exact hsame.closed_eq

theorem SameStreams.uninstall
    (hsame : SameStreams slots streams tap) :
    SameStreams slots.uninstall streams.uninstall fun _ => none := by
  constructor
  · intro stream
    rw [Streams.uninstall_sink, ← hsame.sink_eq]
    cases stream <;> rfl
  · intro stream
    cases stream <;> rfl
  · exact hsame.opened_eq
  · exact congrArg (· + 1) hsame.closed_eq

theorem SameStreams.flushOnly_eq
    (hsame : SameStreams slots streams tap) (only : Option Stream) :
    slots.flushOnly only = streams.flushOnly only := by
  cases only with
  | none =>
    have hstdout : slots.stdout.sink = streams.stdout := hsame.sink_eq .stdout
    have hstderr : slots.stderr.sink = streams.stderr := hsame.sink_eq .stderr
    simp only [SlotStreams.flushOnly, Streams.flushOnly, SlotStreams.flush, Streams.flush,
      hstdout, hstderr]
  | some stream => exact congrArg Sink.flush (hsame.sink_eq stream)

theorem SameStreams.flushedAt
    (hsame : SameStreams slots streams tap) (stream : Stream) :
    SameStreams (slots.flushedAt stream) (streams.flushedAt stream) tap := by
  have hset := hsame.set stream (streams.sink stream).flushed
  rw [← hsame.sink_eq stream, ← hsame.tap_eq stream] at hset
  rw [SlotStreams.flushedAt, Streams.flushedAt, ← hsame.sink_eq stream]
  exact hset

theorem SameStreams.flushed
    (hsame : SameStreams slots streams tap) :
    SameStreams slots.flushed streams.flushed tap := by
  have hstdout : slots.stdout.sink = streams.stdout := hsame.sink_eq .stdout
  rw [SlotStreams.flushed, Streams.flushed, hstdout]
  cases streams.stdout.flush with
  | ok _ => exact (hsame.flushedAt .stdout).flushedAt .stderr
  | error _ => exact hsame.flushedAt .stdout

theorem SameStreams.flushedOnly
    (hsame : SameStreams slots streams tap) (only : Option Stream) :
    SameStreams (slots.flushedOnly only) (streams.flushedOnly only) tap := by
  cases only with
  | none => exact hsame.flushed
  | some stream => exact hsame.flushedAt stream

theorem SlotStreams.flushedAt_buffers (slots : SlotStreams) (stream : Stream) :
    (slots.flushedAt stream).buffers = slots.buffers := by
  cases stream <;> rfl

theorem SlotStreams.flushed_buffers (slots : SlotStreams) :
    slots.flushed.buffers = slots.buffers := by
  unfold flushed
  split
  · rw [flushedAt_buffers, flushedAt_buffers]
  · rw [flushedAt_buffers]

theorem SlotStreams.flushedOnly_buffers (slots : SlotStreams) (only : Option Stream) :
    (slots.flushedOnly only).buffers = slots.buffers := by
  cases only with
  | none => exact slots.flushed_buffers
  | some stream => exact slots.flushedAt_buffers stream

theorem SameStreams.isTapped_eq
    (hsame : SameStreams slots streams tap) :
    slots.isTapped = ((tap .stdout).isSome || (tap .stderr).isSome) := by
  have hstdout : slots.stdout.tap = tap .stdout := hsame.tap_eq .stdout
  have hstderr : slots.stderr.tap = tap .stderr := hsame.tap_eq .stderr
  rw [SlotStreams.isTapped, hstdout, hstderr]

theorem modify_last (older : List Bytes) (last bytes : Bytes) :
    (older ++ [last]).modify older.length (· ++ bytes) = older ++ [last ++ bytes] := by
  induction older with
  | nil => rfl
  | cons first rest ih => simpa using ih

variable {slotStack : SlotStack} {stack : TeeStack}

theorem InStep.sink_eq (hstep : InStep slotStack stack) (stream : Stream) :
    (slotStack.streams.slot stream).sink = stack.streams.sink stream := by
  cases hstep with
  | idle hsame _ _ => exact hsame.sink_eq stream
  | within hsame _ _ _ => exact hsame.sink_eq stream

theorem InStep.flush (hstep : InStep slotStack stack) (only : Option Stream) :
    slotStack.streams.flushOnly only = stack.streams.flushOnly only ∧
      InStep { slotStack with streams := slotStack.streams.flushedOnly only }
        { stack with streams := stack.streams.flushedOnly only } := by
  cases hstep with
  | @idle slots streams slotHeld held hsame htap hheld =>
    refine ⟨hsame.flushOnly_eq only, .idle (hsame.flushedOnly only)
      ((streams.flushedOnly_frame only).1.trans htap) ?_⟩
    rw [slots.flushedOnly_buffers]
    exact hheld
  | @within slots streams slotHeld held tap older encoding errors hsame htap hbuffers hheld =>
    exact ⟨hsame.flushOnly_eq only, .within (hsame.flushedOnly only)
      ((streams.flushedOnly_frame only).1.trans htap)
      ((slots.flushedOnly_buffers only).trans hbuffers) hheld⟩

theorem InStep.write
    (hstep : InStep slotStack stack) (stream : Stream) (bytes : Bytes) :
    (slotStack.streams.write stream bytes).1 = (stack.streams.write stream bytes).1 ∧
      InStep { slotStack with streams := (slotStack.streams.write stream bytes).2 }
        { stack with streams := (stack.streams.write stream bytes).2 } := by
  cases hstep with
  | @idle slots streams slotHeld held hsame htap hheld =>
    have hslot : slots.slot stream = ⟨streams.sink stream, none⟩ := by
      rw [← hsame.sink_eq stream, ← hsame.tap_eq stream]
    have hwrite : slots.write stream bytes =
        (((streams.sink stream).writePayload bytes).1,
          slots.setSlot stream ⟨((streams.sink stream).writePayload bytes).2, none⟩) := by
      simp only [SlotStreams.write, hslot]
    have hother : streams.write stream bytes =
        (((streams.sink stream).writePayload bytes).1,
          streams.setSink stream ((streams.sink stream).writePayload bytes).2) := by
      simp only [Streams.write, htap]
    rw [hwrite, hother]
    refine ⟨rfl, .idle (hsame.set stream _) ?_ ?_⟩
    · simpa using htap
    · cases stream <;> exact hheld
  | @within slots streams slotHeld held tap older encoding errors hsame htap hbuffers hheld =>
    have hslot : slots.slot stream =
        ⟨streams.sink stream, some ⟨older.length, tap.decoration stream⟩⟩ := by
      rw [← hsame.sink_eq stream, ← hsame.tap_eq stream]
    have hnext : slots.buffers.modify older.length (· ++ bytes) =
        older ++ [(tap.record bytes).captured] := by
      rw [hbuffers, modify_last]
      simp [Tap.captured, Tap.record]
    have hwrite : slots.write stream bytes =
        (((streams.sink stream).writeDecorated (tap.decoration stream) bytes).1,
          { slots.setSlot stream
              ⟨((streams.sink stream).writeDecorated (tap.decoration stream) bytes).2,
                some ⟨older.length, tap.decoration stream⟩⟩ with
            buffers := slots.buffers.modify older.length (· ++ bytes) }) := by
      simp only [SlotStreams.write, hslot]
    have hother : streams.write stream bytes =
        (((streams.sink stream).writeDecorated (tap.decoration stream) bytes).1,
          { streams.setSink stream
              ((streams.sink stream).writeDecorated (tap.decoration stream) bytes).2 with
            tap := some (tap.record bytes) }) := by
      simp only [Streams.write, htap]
    rw [hwrite, hother]
    refine ⟨rfl, .within ?_ rfl hnext hheld⟩
    rw [tap.record_decoration]
    exact (hsame.set stream _).withCapture _ _

theorem InStep.start
    (hstep : InStep slotStack stack) (settings : TeeSettings) :
    ((TeeCall.start settings).performSlots slotStack).1 =
        ((TeeCall.start settings).perform stack).1 ∧
      InStep ((TeeCall.start settings).performSlots slotStack).2
        ((TeeCall.start settings).perform stack).2 := by
  cases hstep with
  | idle hsame htap hheld =>
    have hslots := hsame.isTapped_eq
    simp only [TeeCall.performSlots, TeeCall.perform, SlotStack.start, TeeStack.start, Tee.start,
      Streams.isTapped, htap, hslots]
    refine ⟨rfl, .within (hsame.install settings.stdout settings.stderr) rfl rfl hheld⟩
  | within hsame htap hbuffers hheld =>
    have hslots := hsame.isTapped_eq
    simp only [TeeCall.performSlots, TeeCall.perform, SlotStack.start, TeeStack.start, Tee.start,
      Streams.isTapped, htap, hslots]
    exact ⟨rfl, .within hsame htap hbuffers hheld⟩

theorem SlotTee.close_of_closed {tee : SlotTee} (hclosed : tee.closed = true)
    (slots : SlotStreams) : tee.close slots = (tee, slots) :=
  if_pos hclosed

theorem Kept.isClosed {buffers : List Bytes} {slot : SlotTee} {tee : Tee}
    (hkept : Kept buffers slot tee) : tee.isClosed = true := by
  obtain ⟨bytes, -, rfl⟩ := hkept.buffer
  rfl

theorem InStep.close (hstep : InStep slotStack stack) :
    InStep slotStack.close stack.close := by
  cases hstep with
  | idle hsame htap hheld =>
    cases hheld with
    | nil => exact .idle hsame htap .nil
    | cons hinner houter =>
      simp only [SlotStack.close, TeeStack.close, SlotTee.close_of_closed hinner.closed,
        Tee.close, hinner.isClosed, if_true]
      exact .idle hsame htap (.cons hinner houter)
  | @within slots streams slotHeld held tap older encoding errors hsame htap hbuffers hheld =>
    have hcaptured : streams.captured = tap.captured := by
      rw [Streams.captured, htap]
    have hnext : slots.uninstall.flushed.buffers = older ++ [tap.captured] :=
      slots.uninstall.flushed_buffers.trans hbuffers
    refine .idle hsame.uninstall.flushed streams.uninstall.flushed_tap ?_
    rw [hnext, hcaptured]
    refine .cons ⟨rfl, tap.captured, ?_, rfl⟩ ?_
    · simp
    · exact hheld.imp fun _ _ hkept => hkept.append _

theorem InStep.drop (hstep : InStep slotStack stack) :
    InStep slotStack.drop stack.drop := by
  cases hstep with
  | idle hsame htap hheld =>
    cases hheld with
    | nil => exact .idle hsame htap .nil
    | cons hinner houter =>
      simp only [SlotStack.drop, TeeStack.drop, SlotTee.close_of_closed hinner.closed,
        Tee.close, hinner.isClosed, if_true]
      exact .idle hsame htap houter
  | @within slots streams slotHeld held tap older encoding errors hsame htap hbuffers hheld =>
    have hnext : slots.uninstall.flushed.buffers = older ++ [tap.captured] :=
      slots.uninstall.flushed_buffers.trans hbuffers
    refine .idle hsame.uninstall.flushed streams.uninstall.flushed_tap ?_
    refine hheld.imp fun _ _ hkept => ?_
    simp only [SlotTee.close, Bool.false_eq_true, if_false, hnext]
    exact hkept.append _

theorem TeeCall.perform_write_tee (stack : TeeStack) (stream : Stream) (bytes : Bytes) :
    ((write .tee stream bytes).perform stack).1 =
      .tee (teeResult (stack.streams.write stream bytes).1) := by
  simp only [perform, Tee.write]
  split
  · rename_i hwrite
    rw [hwrite]
    rfl
  · rename_i hwrite
    rw [hwrite]
    rfl

/-- Every call gets the same answer from both machines. -/
theorem InStep.perform (hstep : InStep slotStack stack) (call : TeeCall) :
    (call.performSlots slotStack).1 = (call.perform stack).1 ∧
      InStep (call.performSlots slotStack).2 (call.perform stack).2 := by
  cases call with
  | start settings => exact hstep.start settings
  | write route stream bytes =>
    obtain ⟨hresult, hnext⟩ := hstep.write stream bytes
    rw [TeeCall.perform_write]
    refine ⟨?_, hnext⟩
    cases route with
    | streams => exact congrArg TeeReply.sink hresult
    | tee =>
      rw [TeeCall.perform_write_tee, ← hresult]
      rfl
  | flush only =>
    obtain ⟨hresult, hnext⟩ := hstep.flush only
    exact ⟨congrArg TeeReply.sink hresult, hnext⟩
  | close => exact ⟨rfl, hstep.close⟩
  | drop => exact ⟨rfl, hstep.drop⟩

theorem InStep.after (hstep : InStep slotStack stack) (calls : List TeeCall) :
    InStep (slotStack.after calls) (stack.after calls) := by
  induction calls generalizing slotStack stack with
  | nil => exact hstep
  | cons call rest ih => exact ih (hstep.perform call).2

theorem InStep.tap_isSome (hstep : InStep slotStack stack) (stream : Stream) :
    (slotStack.streams.slot stream).tap.isSome = stack.streams.isTapped := by
  cases hstep with
  | idle hsame htap _ => rw [hsame.tap_eq, Streams.isTapped, htap]; rfl
  | within hsame htap _ _ => rw [hsame.tap_eq, Streams.isTapped, htap]; rfl

/-- The same tee, as its state and its capture tell. -/
def SameTee (slots : SlotStreams) (streams : Streams) (slot : SlotTee) (tee : Tee) : Prop :=
  slot.closed = tee.isClosed ∧ slot.captured slots = tee.captured streams

theorem Kept.sameTee
    {buffers : List Bytes} {slot : SlotTee} {tee : Tee} (hkept : Kept buffers slot tee)
    (hbuffers : slots.buffers = buffers) (streams : Streams) :
    SameTee slots streams slot tee := by
  obtain ⟨bytes, hbuffer, htee⟩ := hkept.buffer
  refine ⟨hkept.closed.trans hkept.isClosed.symm, ?_⟩
  rw [SlotTee.captured, hbuffers, List.getD_eq_getElem?_getD, hbuffer, htee]
  rfl

theorem InStep.held (hstep : InStep slotStack stack) :
    List.Forall₂ (SameTee slotStack.streams stack.streams) slotStack.held stack.held := by
  cases hstep with
  | idle hsame htap hheld => exact hheld.imp fun _ _ hkept => hkept.sameTee rfl _
  | @within slots streams slotHeld held tap older encoding errors hsame htap hbuffers hheld =>
    refine .cons ⟨rfl, ?_⟩ (hheld.imp fun _ _ hkept => (hkept.append _).sameTee hbuffers _)
    simp [SlotTee.captured, Tee.captured, Streams.captured, htap, hbuffers]

/-- The machine with one tap for each stream cannot be told from that with a common tap. -/
structure SameStack (slotStack : SlotStack) (stack : TeeStack) : Prop where
  sink_eq : ∀ stream, (slotStack.streams.slot stream).sink = stack.streams.sink stream
  tapped_eq : ∀ stream,
    (slotStack.streams.slot stream).tap.isSome = stack.streams.isTapped
  opened_eq : slotStack.streams.opened = stack.streams.opened
  closed_eq : slotStack.streams.closed = stack.streams.closed
  held : List.Forall₂ (SameTee slotStack.streams stack.streams) slotStack.held stack.held
  reply_eq : ∀ call : TeeCall, (call.performSlots slotStack).1 = (call.perform stack).1

theorem InStep.sameStack (hstep : InStep slotStack stack) : SameStack slotStack stack where
  sink_eq := hstep.sink_eq
  tapped_eq := hstep.tap_isSome
  opened_eq := by
    cases hstep with
    | idle hsame _ _ => exact hsame.opened_eq
    | within hsame _ _ _ => exact hsame.opened_eq
  closed_eq := by
    cases hstep with
    | idle hsame _ _ => exact hsame.closed_eq
    | within hsame _ _ _ => exact hsame.closed_eq
  held := hstep.held
  reply_eq call := (hstep.perform call).1

/-! ## Tees nest and capture what is written -/

/-- Tees open and close like brackets, one at a time on both streams; each captures the
payloads of the writes in its span and keeps them; and a stream shows its own writes, as the
tee that was installed at the time has them. -/
theorem tees_nest_and_capture (stdout stderr : Sink) (calls : List TeeCall) :
    let first := TeeStack.ofSinks stdout stderr
    let stack := first.after calls
    SameStack ((SlotStack.ofSinks stdout stderr).after calls) stack ∧
      stack.streams.opened = stack.streams.closed + (if stack.streams.isTapped then 1 else 0) ∧
      (∀ tee ∈ stack.held.tail, tee.isClosed = true) ∧
      (stack.streams.isTapped = false ↔ ∀ tee ∈ stack.held, tee.isClosed = true) ∧
      (∀ settings, (∃ next, stack.start settings = .ok next) ↔
        ∀ tee ∈ stack.held, tee.isClosed = true) ∧
      (∀ tee outer, stack.held = tee :: outer → tee.isClosed = true →
        stack.close = stack ∧ stack.drop = ⟨stack.streams, outer⟩) ∧
      (∀ front tee outer, stack.held = front ++ tee :: outer →
        (∃ settings before inside rest,
          Origin first calls tee outer settings before inside rest) ∧
        (tee.isClosed = true → ∀ more,
          (∀ count, outer.length < (stack.after (more.take count)).held.length) →
            (∃ front, (stack.after more).held = front ++ tee :: outer) ∧
              tee.captured (stack.after more).streams = tee.captured stack.streams)) ∧
      ((stack.streams.tap.map fun tap => (tap.stdout, tap.stderr)) =
        (installed calls).map fun settings => (settings.stdout, settings.stderr)) ∧
      (stdout.TakesBytes → stderr.TakesBytes → ∀ stream,
        (stack.streams.sink stream).written =
          (first.streams.sink stream).written ++ shown stream none calls) := by
  intro first stack
  have hfirst : Nested first none := nested_ofSinks stdout stderr
  have hnested : Nested stack (installed calls) := hfirst.after calls
  have hopened := hnested.opened_eq
  have hall := hnested.eq_none_iff
  rw [← hnested.isTapped_eq] at hopened
  refine ⟨((inStep_ofSinks stdout stderr).after calls).sameStack, hopened,
    hnested.tail_closed, ?_, hnested.start_ok_iff, ?_, ?_, hnested.decorations_eq, ?_⟩
  · rw [hnested.isTapped_eq, ← hall]
    cases installed calls <;> simp
  · intro tee outer hheld hclosed
    have hevery : ∀ other ∈ stack.held, other.isClosed = true := by
      have houter := hnested.tail_closed
      rw [hheld] at houter ⊢
      exact List.forall_mem_cons.mpr ⟨hclosed, houter⟩
    refine ⟨TeeStack.close_of_closed hevery, ?_⟩
    rw [TeeStack.drop_of_closed hevery, hheld]
    rfl
  · intro front tee outer hheld
    refine ⟨exists_origin hfirst rfl calls hheld, ?_⟩
    intro hclosed more hlength
    exact ⟨hnested.closed_stays hheld hclosed more hlength,
      tee.captured_of_closed hclosed _ _⟩
  · intro hstdout hstderr stream
    refine hfirst.after_sink ?_ calls stream
    intro other
    cases other with
    | stdout => exact hstdout.spells
    | stderr => exact hstderr.spells

-- A device that jams in the middle of its first chunk does not keep bytes from the capture.
example :
    let device : Device := ⟨fun calls _ => if calls = [] then some ⟨1, "jammed"⟩ else none,
      fun _ => none⟩
    let stack := (TeeStack.ofSinks ⟨.binary, device, [], []⟩ (.unlimited .binary)).after
      [.start .standard, .write .tee .stdout [1, 2], .write .streams .stdout [3],
        .write .streams .stderr [4], .close, .write .tee .stderr [5]]
    stack.held.map (·.captured stack.streams) = [[1, 2, 3, 4]] ∧
      stack.streams.stdout.written = [1, 3] ∧ stack.streams.stderr.written = [4, 5] := by
  decide

end Output
end LineShell
