import LineShell.Output.Tee
import LineShell.Proofs.Text.Utf8

/-!
# What a stream shows and what a tap captures

A text sink reads every write by itself, while a capture is read once, as a whole.
Where no policy fails, a reading puts together what stands for each piece of the bytes,
and well-formed text ends between pieces.  So the text of a capture is that of its
writes, one after the other, and each sink holds its own writes with their decorations.
-/

namespace LineShell
namespace Output

open Text

/-! ## Reading bytes in pieces -/

/-- What stands in a text for a piece of the bytes under a policy that never fails. -/
def ErrorPolicy.shown (errors : ErrorPolicy) : Piece → List Char
  | .char c _ => [c]
  | .bad bytes => (errors.substitute? bytes).getD []

def readChars (encoding : Encoding) (errors : ErrorPolicy) (bytes : Bytes) : List Char :=
  (encoding.split bytes).flatMap errors.shown

/-- The text of bytes under a policy that never fails. -/
def readText (encoding : Encoding) (errors : ErrorPolicy) (bytes : Bytes) : String :=
  String.ofList (readChars encoding errors bytes)

theorem joinPieces_of_ne_strict
    {errors : ErrorPolicy} (hpolicy : errors ≠ .strict) (encoding : Encoding)
    (offset : Nat) (pieces : List Piece) :
    joinPieces encoding errors offset pieces = .ok (pieces.flatMap errors.shown) := by
  induction pieces generalizing offset with
  | nil => rfl
  | cons piece rest ih =>
    cases piece with
    | char c bytes =>
      rw [joinPieces, ih]
      rfl
    | bad bytes =>
      obtain ⟨text, htext⟩ : ∃ text, errors.substitute? bytes = some text := by
        cases errors with
        | strict => exact absurd rfl hpolicy
        | replace => exact ⟨_, rfl⟩
        | ignore => exact ⟨_, rfl⟩
        | backslashReplace => exact ⟨_, rfl⟩
      simp only [joinPieces, htext, ih, List.flatMap_cons, ErrorPolicy.shown,
        Option.getD_some]
      rfl

theorem decodeChars_of_ne_strict
    {errors : ErrorPolicy} (hpolicy : errors ≠ .strict) (encoding : Encoding)
    (bytes : Bytes) :
    decodeChars encoding errors bytes = .ok (readChars encoding errors bytes) :=
  joinPieces_of_ne_strict hpolicy encoding 0 (encoding.split bytes)

theorem decode_of_ne_strict
    {errors : ErrorPolicy} (hpolicy : errors ≠ .strict) (encoding : Encoding)
    (bytes : Bytes) :
    decode encoding errors bytes = .ok (readText encoding errors bytes) := by
  rw [decode, decodeChars_of_ne_strict hpolicy]
  rfl

/-- Well-formed text ends between characters, and the other encodings read each byte by
itself. -/
theorem split_append
    {bytes : Bytes} (hbytes : (Utf8.decode? bytes).isSome) (encoding : Encoding)
    (rest : Bytes) :
    encoding.split (bytes ++ rest) = encoding.split bytes ++ encoding.split rest := by
  cases encoding with
  | utf8 =>
    obtain ⟨text, htext⟩ := Option.isSome_iff_exists.mp hbytes
    rw [Utf8.decode?_eq_some_iff.mp htext]
    exact Utf8.split_encodeChars_append text.toList rest
  | ascii => exact List.map_append
  | latin1 => exact List.map_append

theorem readChars_flatten
    {writes : List Bytes} (hwrites : ∀ bytes ∈ writes, (Utf8.decode? bytes).isSome)
    (encoding : Encoding) (errors : ErrorPolicy) :
    readChars encoding errors writes.flatten =
      writes.flatMap (readChars encoding errors) := by
  induction writes with
  | nil => cases encoding <;> rfl
  | cons bytes rest ih =>
    have hfirst := split_append (hwrites bytes List.mem_cons_self) encoding rest.flatten
    have hrest := ih fun other hother => hwrites other (List.mem_cons_of_mem bytes hother)
    rw [List.flatten_cons, List.flatMap_cons, ← hrest]
    unfold readChars
    rw [hfirst, List.flatMap_append]

/-- A capture of well-formed writes reads as the texts of the writes. -/
theorem readCapture_flatten
    {errors : ErrorPolicy} (hpolicy : errors ≠ .strict) (encoding : Encoding)
    {writes : List Bytes} (hwrites : ∀ bytes ∈ writes, (Utf8.decode? bytes).isSome) :
    Tee.readCapture encoding errors writes.flatten =
      String.join (writes.map (readText encoding errors)) := by
  unfold Tee.readCapture
  rw [decode_of_ne_strict hpolicy, readText, readChars_flatten hwrites, ← String.toList_inj,
    String.toList_ofList, String.toList_join, List.flatMap_map]
  simp only [readText, String.toList_ofList]

/-! ## Sinks that take everything -/

/-- A device takes every chunk whole, whatever it was asked before. -/
def Device.TakesAll (device : Device) : Prop :=
  ∀ calls chunk, device.refusal? calls chunk = none

namespace Sink

theorem put_frame (sink : Sink) (bytes : Bytes) :
    (sink.put bytes).2.kind = sink.kind ∧ (sink.put bytes).2.device = sink.device := by
  unfold put
  split
  · exact ⟨rfl, rfl⟩
  · split <;> exact ⟨rfl, rfl⟩

theorem writePayload_frame (sink : Sink) (bytes : Bytes) :
    (sink.writePayload bytes).2.kind = sink.kind ∧
      (sink.writePayload bytes).2.device = sink.device := by
  unfold writePayload
  split
  · exact sink.put_frame bytes
  · split
    · exact sink.put_frame _
    · exact ⟨rfl, rfl⟩

theorem writeDecorated_frame (sink : Sink) (decoration : Decoration) (bytes : Bytes) :
    (sink.writeDecorated decoration bytes).2.kind = sink.kind ∧
      (sink.writeDecorated decoration bytes).2.device = sink.device := by
  unfold writeDecorated
  split
  · exact sink.writePayload_frame bytes
  · have hbefore := sink.put_frame (Utf8.encode decoration.before)
    split
    · rename_i first hfirst
      rwa [hfirst] at hbefore
    · rename_i first hfirst
      rw [hfirst] at hbefore
      have hpayload := first.writePayload_frame bytes
      split
      · rename_i second hsecond
        rw [hsecond] at hpayload
        exact ⟨hpayload.1.trans hbefore.1, hpayload.2.trans hbefore.2⟩
      · rename_i second hsecond
        rw [hsecond] at hpayload
        have hafter := second.put_frame (Utf8.encode decoration.after)
        exact ⟨hafter.1.trans (hpayload.1.trans hbefore.1),
          hafter.2.trans (hpayload.2.trans hbefore.2)⟩

/-- A sink that spells each payload in one way, over a device that takes everything. -/
structure Spells (sink : Sink) (spell : Bytes → Bytes) : Prop where
  payload_eq : ∀ other : Sink, other.kind = sink.kind →
    ∀ bytes, other.writePayload bytes = other.put (spell bytes)
  accepts : sink.device.TakesAll

/-- A device that takes everything takes a write whole. -/
theorem put_of_accepts
    {sink : Sink} (haccepts : sink.device.TakesAll) (bytes : Bytes) :
    ∃ next : Sink, sink.put bytes = (.ok (), next) ∧ next.written = sink.written ++ bytes := by
  unfold put
  by_cases hempty : bytes.isEmpty = true
  · rw [if_pos hempty, List.isEmpty_iff.mp hempty]
    exact ⟨sink, rfl, (List.append_nil _).symm⟩
  · rw [if_neg hempty]
    dsimp only
    rw [haccepts]
    exact ⟨_, rfl, by simp [written]⟩

variable {spell : Bytes → Bytes}

theorem Spells.of_frame
    {sink other : Sink} (hsink : sink.Spells spell)
    (hframe : other.kind = sink.kind ∧ other.device = sink.device) : other.Spells spell := by
  constructor
  · exact fun third hkind => hsink.payload_eq third (hkind.trans hframe.1)
  · rw [hframe.2]
    exact hsink.accepts

theorem Spells.put
    {sink : Sink} (hsink : sink.Spells spell) (bytes : Bytes) :
    ∃ next : Sink, sink.put bytes = (.ok (), next) ∧ next.Spells spell ∧
      next.written = sink.written ++ bytes := by
  obtain ⟨next, hnext, hwritten⟩ := put_of_accepts hsink.accepts bytes
  have hframe := sink.put_frame bytes
  rw [hnext] at hframe
  exact ⟨next, hnext, hsink.of_frame hframe, hwritten⟩

theorem Spells.writePayload
    {sink : Sink} (hsink : sink.Spells spell) (bytes : Bytes) :
    ∃ next : Sink, sink.writePayload bytes = (.ok (), next) ∧ next.Spells spell ∧
      next.written = sink.written ++ spell bytes := by
  rw [hsink.payload_eq sink rfl]
  exact hsink.put (spell bytes)

end Sink

/-- The bytes of a write with a decoration around it; an empty write has none. -/
def decorated (spell : Bytes → Bytes) (decoration : Decoration) (bytes : Bytes) : Bytes :=
  if bytes = [] then []
  else Utf8.encode decoration.before ++ spell bytes ++ Utf8.encode decoration.after

theorem Sink.Spells.writeDecorated
    {spell : Bytes → Bytes} (hnil : spell [] = []) {sink : Sink} (hsink : sink.Spells spell)
    (decoration : Decoration) (bytes : Bytes) :
    ∃ next : Sink, sink.writeDecorated decoration bytes = (.ok (), next) ∧
      next.Spells spell ∧
      next.written = sink.written ++ decorated spell decoration bytes := by
  unfold Sink.writeDecorated
  by_cases hplain : (decoration.isEmpty || bytes.isEmpty) = true
  · rw [if_pos hplain]
    obtain ⟨next, hnext, hspells, hwritten⟩ := hsink.writePayload bytes
    refine ⟨next, hnext, hspells, ?_⟩
    rw [hwritten]
    unfold decorated
    by_cases hbytes : bytes = []
    · rw [if_pos hbytes, hbytes, hnil]
    · have hempty : decoration.before = "" ∧ decoration.after = "" := by
        simpa [Decoration.isEmpty, hbytes] using hplain
      rw [if_neg hbytes, hempty.1, hempty.2]
      simp [Utf8.encode, Utf8.encodeChars]
  · rw [if_neg hplain]
    have hne : bytes ≠ [] := by
      intro hbytes
      simp [hbytes] at hplain
    obtain ⟨first, hfirst, hfirstSpells, hfirstWritten⟩ :=
      hsink.put (Utf8.encode decoration.before)
    obtain ⟨second, hsecond, hsecondSpells, hsecondWritten⟩ :=
      hfirstSpells.writePayload bytes
    obtain ⟨third, hthird, hthirdSpells, hthirdWritten⟩ :=
      hsecondSpells.put (Utf8.encode decoration.after)
    simp only [hfirst, hsecond, hthird]
    refine ⟨third, rfl, hthirdSpells, ?_⟩
    rw [hthirdWritten, hsecondWritten, hfirstWritten, decorated, if_neg hne]
    simp

/-! ## Sinks that show text -/

/-- A text sink over a device that takes everything. -/
structure Sink.ShowsText (sink : Sink) (encoding : Encoding) (errors : ErrorPolicy) :
    Prop where
  kind_eq : sink.kind = .text encoding errors
  accepts : sink.device.TakesAll

theorem Sink.ShowsText.of_frame
    {encoding : Encoding} {errors : ErrorPolicy} {sink other : Sink}
    (hsink : sink.ShowsText encoding errors)
    (hframe : other.kind = sink.kind ∧ other.device = sink.device) :
    other.ShowsText encoding errors := by
  constructor
  · rw [hframe.1, hsink.kind_eq]
  · rw [hframe.2]
    exact hsink.accepts

theorem Sink.ShowsText.spells
    {encoding : Encoding} {errors : ErrorPolicy} {sink : Sink}
    (hsink : sink.ShowsText encoding errors) (hpolicy : errors ≠ .strict) :
    sink.Spells fun bytes => Utf8.encodeChars (readChars encoding errors bytes) := by
  refine ⟨?_, hsink.accepts⟩
  intro other hkind bytes
  unfold Sink.writePayload
  simp only [hkind, hsink.kind_eq, decodeChars_of_ne_strict hpolicy]

/-- The bytes that a write adds to a text sink: none if the write is empty, and
otherwise its text with the decoration around it. -/
def dressed (encoding : Encoding) (errors : ErrorPolicy) (decoration : Decoration)
    (bytes : Bytes) : Bytes :=
  if bytes = [] then []
  else Utf8.encode (decoration.before ++ readText encoding errors bytes ++ decoration.after)

theorem readChars_nil (encoding : Encoding) (errors : ErrorPolicy) :
    readChars encoding errors [] = [] := by
  cases encoding <;> rfl

theorem Sink.ShowsText.writeDecorated
    {encoding : Encoding} {errors : ErrorPolicy} {sink : Sink}
    (hsink : sink.ShowsText encoding errors) (hpolicy : errors ≠ .strict)
    (decoration : Decoration) (bytes : Bytes) :
    ∃ next : Sink, sink.writeDecorated decoration bytes = (.ok (), next) ∧
      next.ShowsText encoding errors ∧
      next.written = sink.written ++ dressed encoding errors decoration bytes := by
  have hnil : Utf8.encodeChars (readChars encoding errors []) = [] := by
    rw [readChars_nil]
    rfl
  obtain ⟨next, hnext, -, hwritten⟩ :=
    (hsink.spells hpolicy).writeDecorated hnil decoration bytes
  have hframe := sink.writeDecorated_frame decoration bytes
  rw [hnext] at hframe
  refine ⟨next, hnext, hsink.of_frame hframe, ?_⟩
  rw [hwritten, decorated, dressed]
  simp [Utf8.encode, Utf8.encodeChars, readText]

/-! ## Streams that show text -/

@[simp] theorem Tap.record_decoration (tap : Tap) (bytes : Bytes) :
    (tap.record bytes).decoration = tap.decoration := by
  funext stream
  cases stream <;> rfl

namespace Streams

variable {encoding : Encoding} {errors : ErrorPolicy}

def ShowText (streams : Streams) (encoding : Encoding) (errors : ErrorPolicy) : Prop :=
  ∀ stream, (streams.sink stream).ShowsText encoding errors

theorem sink_setSink (streams : Streams) (stream other : Stream) (sink : Sink) :
    (streams.setSink stream sink).sink other =
      if other = stream then sink else streams.sink other := by
  cases stream <;> cases other <;> rfl

/-- A flush leaves each sink alone or flushes it. -/
theorem flushed_sink (streams : Streams) (stream : Stream) :
    streams.flushed.sink stream = streams.sink stream ∨
      streams.flushed.sink stream = (streams.sink stream).flushed := by
  unfold flushed
  cases streams.stdout.flush with
  | ok _ => cases stream <;> exact Or.inr rfl
  | error _ =>
    cases stream
    · exact Or.inr rfl
    · exact Or.inl rfl

theorem flushed_written (streams : Streams) (stream : Stream) :
    (streams.flushed.sink stream).written = (streams.sink stream).written := by
  rcases streams.flushed_sink stream with hsink | hsink
  · rw [hsink]
  · rw [hsink]
    rfl

theorem ShowText.flushed
    {streams : Streams} (hshow : streams.ShowText encoding errors) :
    streams.flushed.ShowText encoding errors := by
  intro stream
  rcases streams.flushed_sink stream with hsink | hsink
  · rw [hsink]
    exact hshow stream
  · rw [hsink]
    exact (hshow stream).of_frame ⟨rfl, rfl⟩

theorem write_tap (streams : Streams) (stream : Stream) (bytes : Bytes) :
    (streams.write stream bytes).2.tap = streams.tap.map fun tap => tap.record bytes := by
  unfold write
  cases htap : streams.tap with
  | none => cases stream <;> exact htap
  | some tap => rfl

theorem write_sink (streams : Streams) (target stream : Stream) (bytes : Bytes) :
    (streams.write target bytes).2.sink stream =
      if stream = target then
        match streams.tap with
        | none => ((streams.sink target).writePayload bytes).2
        | some tap =>
          ((streams.sink target).writeDecorated (tap.decoration target) bytes).2
      else streams.sink stream := by
  rw [← sink_setSink]
  unfold write
  cases streams.tap with
  | none => rfl
  | some tap => cases stream <;> rfl

/-- Any write leaves the kinds and the devices of both sinks as they were. -/
theorem ShowText.write
    {streams : Streams} (hshow : streams.ShowText encoding errors) (stream : Stream)
    (bytes : Bytes) : (streams.write stream bytes).2.ShowText encoding errors := by
  intro other
  rw [write_sink]
  split_ifs
  · cases streams.tap with
    | none => exact (hshow stream).of_frame ((streams.sink stream).writePayload_frame bytes)
    | some tap =>
      exact (hshow stream).of_frame
        ((streams.sink stream).writeDecorated_frame (tap.decoration stream) bytes)
  · exact hshow other

def writeAll (streams : Streams) (writes : List (Stream × Bytes)) : Streams :=
  writes.foldl (fun streams write => (streams.write write.1 write.2).2) streams

theorem writeAll_append (streams : Streams) (writes more : List (Stream × Bytes)) :
    streams.writeAll (writes ++ more) = (streams.writeAll writes).writeAll more :=
  List.foldl_append

theorem ShowText.writeAll
    {streams : Streams} (hshow : streams.ShowText encoding errors)
    (writes : List (Stream × Bytes)) :
    (streams.writeAll writes).ShowText encoding errors := by
  induction writes generalizing streams with
  | nil => exact hshow
  | cons write rest ih => exact ih (hshow.write write.1 write.2)

/-- The tap keeps all writes in their order, whichever stream they go to, and each sink
takes its own ones with the decoration of the stream. -/
theorem writeAll_of_tap
    {streams : Streams} {tap : Tap} (hshow : streams.ShowText encoding errors)
    (hpolicy : errors ≠ .strict) (htap : streams.tap = some tap)
    (writes : List (Stream × Bytes)) :
    (streams.writeAll writes).captured = tap.captured ++ (writes.map Prod.snd).flatten ∧
    ∀ stream, ((streams.writeAll writes).sink stream).written =
      (streams.sink stream).written ++ writes.flatMap fun write =>
        if write.1 = stream then
          dressed encoding errors (tap.decoration stream) write.2
        else [] := by
  induction writes generalizing streams tap with
  | nil =>
    constructor
    · simp [writeAll, captured, htap]
    · simp [writeAll]
  | cons write rest ih =>
    obtain ⟨target, bytes⟩ := write
    obtain ⟨next, hnext, -, hwritten⟩ :=
      (hshow target).writeDecorated hpolicy (tap.decoration target) bytes
    have htapped : (streams.write target bytes).2.tap = some (tap.record bytes) := by
      rw [write_tap, htap]
      rfl
    obtain ⟨hcaptured, hsinks⟩ := ih (hshow.write target bytes) htapped
    constructor
    · simpa [writeAll, Tap.captured, Tap.record] using hcaptured
    · intro stream
      have hsink : ((streams.write target bytes).2.sink stream).written =
          (streams.sink stream).written ++
            if target = stream then
              dressed encoding errors (tap.decoration stream) bytes
            else [] := by
        rw [write_sink]
        by_cases hsame : stream = target
        · subst hsame
          simp only [if_true, htap, hnext]
          exact hwritten
        · rw [if_neg hsame, if_neg (Ne.symm hsame), List.append_nil]
      rw [tap.record_decoration] at hsinks
      rw [List.flatMap_cons, ← List.append_assoc, ← hsink]
      exact hsinks stream

end Streams
end Output
end LineShell
