import LineShell.Proofs.Faults
import LineShell.Proofs.Output.Policies

/-!
# Decorations that are left open

A decorated write to a text sink puts three things on the device one after the other: what
stands before the payload, the text of the payload, and what stands behind it.  The payload
is decoded between the first two.  So a payload that the strict policy refuses leaves the
opening decoration on the device, and every other write is shown whole.
-/

namespace LineShell
namespace Output

open Text

/-! ## Decorated writes to a sink -/

/-- The text that a decorated write shows; an empty payload stands bare. -/
def Decoration.around (decoration : Decoration) (bytes : Bytes) (text : String) : String :=
  if bytes = [] then text else decoration.before ++ text ++ decoration.after

theorem encode_append (first second : String) :
    Utf8.encode (first ++ second) = Utf8.encode first ++ Utf8.encode second := by
  simp [Utf8.encode, Utf8.encodeChars]

theorem decode_nil (encoding : Encoding) (errors : ErrorPolicy) :
    decode encoding errors [] = .ok "" := by
  cases encoding <;> rfl

theorem Decoration.around_of_plain
    {decoration : Decoration} {bytes : Bytes}
    (hplain : (decoration.isEmpty || bytes.isEmpty) = true) (text : String) :
    decoration.around bytes text = text := by
  unfold around
  split_ifs with hbytes
  · rfl
  · have hempty : decoration.before = "" ∧ decoration.after = "" := by
      simpa [isEmpty, hbytes] using hplain
    rw [hempty.1, hempty.2, String.empty_append, String.append_empty]

namespace Sink

variable {sink : Sink} {encoding : Encoding} {errors : ErrorPolicy}

theorem ShowsText.put
    (hsink : sink.ShowsText encoding errors) (bytes : Bytes) :
    ∃ next : Sink, sink.put bytes = (.ok (), next) ∧ next.ShowsText encoding errors ∧
      next.written = sink.written ++ bytes := by
  obtain ⟨next, hnext, hwritten⟩ := put_of_accepts hsink.accepts bytes
  have hframe := sink.put_frame bytes
  rw [hnext] at hframe
  exact ⟨next, hnext, hsink.of_frame hframe, hwritten⟩

theorem ShowsText.writePayload_eq (hsink : sink.ShowsText encoding errors) (bytes : Bytes) :
    sink.writePayload bytes =
      match decode encoding errors bytes with
      | .ok text => sink.put (Utf8.encode text)
      | .error fault => (.error (.undecodable fault), sink) := by
  unfold writePayload decode
  rw [hsink.kind_eq]
  dsimp only
  cases decodeChars encoding errors bytes with
  | ok chars => simp only [Except.map, Utf8.encode, String.toList_ofList]
  | error fault => rfl

theorem ShowsText.writeDecorated_of_text
    (hsink : sink.ShowsText encoding errors) (decoration : Decoration) {bytes : Bytes}
    {text : String} (htext : decode encoding errors bytes = .ok text) :
    ∃ next : Sink, sink.writeDecorated decoration bytes = (.ok (), next) ∧
      next.written = sink.written ++ Utf8.encode (decoration.around bytes text) := by
  unfold Sink.writeDecorated
  by_cases hplain : (decoration.isEmpty || bytes.isEmpty) = true
  · rw [if_pos hplain, hsink.writePayload_eq, htext, Decoration.around_of_plain hplain]
    exact put_of_accepts hsink.accepts _
  · have hne : bytes ≠ [] := by
      rintro rfl
      simp at hplain
    obtain ⟨first, hfirst, hfirstShows, hbefore⟩ := hsink.put (Utf8.encode decoration.before)
    obtain ⟨second, hsecond, hsecondShows, hpayload⟩ := hfirstShows.put (Utf8.encode text)
    obtain ⟨third, hthird, -, hafter⟩ := hsecondShows.put (Utf8.encode decoration.after)
    have hwrite : first.writePayload bytes = (.ok (), second) := by
      rw [hfirstShows.writePayload_eq, htext]
      exact hsecond
    rw [if_neg hplain]
    simp only [hfirst, hwrite, hthird]
    refine ⟨third, rfl, ?_⟩
    rw [hafter, hpayload, hbefore, Decoration.around, if_neg hne, encode_append, encode_append]
    simp only [List.append_assoc]

/-- A payload that cannot be decoded is met behind the opening decoration. -/
theorem ShowsText.writeDecorated_of_fault
    (hsink : sink.ShowsText encoding errors) (decoration : Decoration) {bytes : Bytes}
    {fault : DecodeFault} (hfault : decode encoding errors bytes = .error fault) :
    ∃ next : Sink, sink.writeDecorated decoration bytes = (.error (.undecodable fault), next) ∧
      next.written = sink.written ++ Utf8.encode decoration.before := by
  have hne : bytes ≠ [] := by
    rintro rfl
    rw [decode_nil] at hfault
    cases hfault
  unfold Sink.writeDecorated
  by_cases hplain : (decoration.isEmpty || bytes.isEmpty) = true
  · have hempty : decoration.before = "" ∧ decoration.after = "" := by
      simpa [Decoration.isEmpty, hne] using hplain
    rw [if_pos hplain, hsink.writePayload_eq, hfault, hempty.1]
    exact ⟨sink, rfl, (List.append_nil _).symm⟩
  · obtain ⟨first, hfirst, hfirstShows, hbefore⟩ := hsink.put (Utf8.encode decoration.before)
    have hwrite : first.writePayload bytes = (.error (.undecodable fault), first) := by
      rw [hfirstShows.writePayload_eq, hfault]
    rw [if_neg hplain]
    simp only [hfirst, hwrite]
    exact ⟨first, rfl, hbefore⟩

end Sink

/-! ## Decorated writes to a stream -/

/-- A payload can be decoded unless the policy is strict and the payload ill formed. -/
theorem exists_decode_eq_ok_iff
    (encoding : Encoding) (errors : ErrorPolicy) (bytes : Bytes) :
    (∃ text, decode encoding errors bytes = .ok text) ↔
      errors ≠ .strict ∨ encoding.spelling.WellFormed bytes := by
  constructor
  · rintro ⟨text, htext⟩
    by_contra hneither
    obtain ⟨hstrict, hbad⟩ := not_or.mp hneither
    obtain ⟨offset, byte, hfault, -⟩ := decode_strict_of_not_wellFormed hbad
    rw [not_not.mp hstrict, hfault] at htext
    cases htext
  · rintro (hpolicy | ⟨text, htext⟩)
    · exact ⟨_, decode_of_ne_strict hpolicy encoding bytes⟩
    · exact ⟨String.ofList text, decode_of_write? (by rwa [String.toList_ofList]) errors⟩

theorem encode_eq_nil_iff {text : String} : Utf8.encode text = [] ↔ text = "" := by
  rw [Utf8.encode, Utf8.encodeChars, List.flatMap_eq_nil_iff]
  constructor
  · intro hnone
    rw [← String.toList_eq_nil_iff, List.eq_nil_iff_forall_not_mem]
    exact fun c hc => Utf8.encodeChar_ne_nil c (hnone c hc)
  · rintro rfl
    simp

namespace Streams

/-- What the device of a stream holds in the end is what it held and a text. -/
def Gains (streams ended : Streams) (stream : Stream) (text : String) : Prop :=
  (ended.sink stream).written = (streams.sink stream).written ++ Utf8.encode text

/-- A write goes well and shows the whole of its text with the decoration around it, or it
fails and shows nothing. -/
def WritesWhole
    (streams : Streams) (stream : Stream) (encoding : Encoding) (errors : ErrorPolicy)
    (decoration : Decoration) (bytes : Bytes) : Prop :=
  let ended := streams.write stream bytes
  (ended.1 = .ok () ∧ ∃ text, decode encoding errors bytes = .ok text ∧
    Gains streams ended.2 stream (decoration.around bytes text)) ∨
  (ended.1.isOk = false ∧ Gains streams ended.2 stream "")

theorem write_answer
    {streams : Streams} {tap : Tap} (htap : streams.tap = some tap) (stream : Stream)
    (bytes : Bytes) :
    (streams.write stream bytes).1 =
      ((streams.sink stream).writeDecorated (tap.decoration stream) bytes).1 := by
  unfold write
  rw [htap]

end Streams

/-- Under a tee, a write to a text sink over a device that takes everything is answered
well and shown whole where its payload can be decoded.  Where it cannot, the write fails
and leaves the opening decoration on the device.  So nothing is left open exactly if there
is no opening decoration, the policy is not strict, or the payload is well formed. -/
theorem refused_payload_leaves_decoration_open
    {streams : Streams} {stream : Stream} {encoding : Encoding} {errors : ErrorPolicy}
    (hsink : (streams.sink stream).ShowsText encoding errors) {tap : Tap}
    (htap : streams.tap = some tap) (bytes : Bytes) :
    let decoration := tap.decoration stream
    let ended := streams.write stream bytes
    (∀ text, decode encoding errors bytes = .ok text →
      ended.1 = .ok () ∧ streams.Gains ended.2 stream (decoration.around bytes text)) ∧
    (∀ fault, decode encoding errors bytes = .error fault →
      ended.1 = .error (.undecodable fault) ∧
        streams.Gains ended.2 stream decoration.before) ∧
    (streams.WritesWhole stream encoding errors decoration bytes ↔
      decoration.before = "" ∨ errors ≠ .strict ∨ encoding.spelling.WellFormed bytes) := by
  intro decoration ended
  have hanswer : ended.1 = ((streams.sink stream).writeDecorated decoration bytes).1 :=
    Streams.write_answer htap stream bytes
  have hsinkAfter : ended.2.sink stream =
      ((streams.sink stream).writeDecorated decoration bytes).2 := by
    rw [Streams.write_sink, if_pos rfl, htap]
  have hwhole : ∀ text, decode encoding errors bytes = .ok text →
      ended.1 = .ok () ∧ streams.Gains ended.2 stream (decoration.around bytes text) := by
    intro text htext
    obtain ⟨next, hnext, hwritten⟩ := hsink.writeDecorated_of_text decoration htext
    rw [hnext] at hanswer hsinkAfter
    exact ⟨hanswer, by rw [Streams.Gains, hsinkAfter, hwritten]⟩
  have hopen : ∀ fault, decode encoding errors bytes = .error fault →
      ended.1 = .error (.undecodable fault) ∧
        streams.Gains ended.2 stream decoration.before := by
    intro fault hfault
    obtain ⟨next, hnext, hwritten⟩ := hsink.writeDecorated_of_fault decoration hfault
    rw [hnext] at hanswer hsinkAfter
    exact ⟨hanswer, by rw [Streams.Gains, hsinkAfter, hwritten]⟩
  refine ⟨hwhole, hopen, ?_⟩
  rw [← exists_decode_eq_ok_iff]
  cases hdecode : decode encoding errors bytes with
  | ok text =>
    have hclosed := hwhole text hdecode
    exact iff_of_true (Or.inl ⟨hclosed.1, text, hdecode, hclosed.2⟩) (Or.inr ⟨text, rfl⟩)
  | error fault =>
    obtain ⟨hfails, hgains⟩ := hopen fault hdecode
    constructor
    · rintro (⟨hok, -⟩ | ⟨-, hnothing⟩)
      · rw [hfails] at hok
        cases hok
      · left
        rw [Streams.Gains, hgains] at hnothing
        exact encode_eq_nil_iff.mp (List.append_cancel_left hnothing)
    · rintro (hbare | ⟨text, htext⟩)
      · exact Or.inr ⟨by rw [hfails]; rfl, hbare ▸ hgains⟩
      · cases htext

/-- A character that is cut off is replaced, and stands in its decoration. -/
theorem replaced_payload_shown_whole :
    let streams := (Streams.ofSinks (Sink.unlimited .binary)
      (Sink.unlimited (.text .utf8 .replace))).install ⟨"[", "]"⟩ ⟨"<", ">"⟩
    let bytes : Bytes := [0x78, 0xE2, 0x82]
    (streams.sink .stderr).ShowsText .utf8 .replace ∧
      streams.tap = some ⟨[], ⟨"[", "]"⟩, ⟨"<", ">"⟩⟩ ∧
      streams.Gains (streams.write .stderr bytes).2 .stderr "<x\uFFFD>" ∧
      streams.WritesWhole .stderr .utf8 .replace ⟨"<", ">"⟩ bytes := by
  intro streams bytes
  have hsink : (streams.sink .stderr).ShowsText .utf8 .replace := ⟨rfl, fun _ _ => rfl⟩
  have htap : streams.tap = some ⟨[], ⟨"[", "]"⟩, ⟨"<", ">"⟩⟩ := rfl
  obtain ⟨hwhole, -, hclosed⟩ := refused_payload_leaves_decoration_open hsink htap bytes
  have hdecode : decode .utf8 .replace bytes = .ok "x\uFFFD" := by decide +kernel
  exact ⟨hsink, htap, (hwhole _ hdecode).2, hclosed.mpr (Or.inr (Or.inl (by decide)))⟩

/-- A byte that is no ASCII leaves a strict sink with an opening bracket. -/
theorem refused_byte_leaves_bracket :
    let streams := (Streams.ofSinks (Sink.unlimited (.text .ascii .strict))
      (Sink.unlimited .binary)).install ⟨"[", "]"⟩ .none
    let ended := streams.write .stdout [0x80]
    (streams.sink .stdout).ShowsText .ascii .strict ∧
      streams.tap = some ⟨[], ⟨"[", "]"⟩, .none⟩ ∧
      ended.1 = .error (.undecodable ⟨.ascii, 0x80, 0⟩) ∧ streams.Gains ended.2 .stdout "[" ∧
      ¬ streams.WritesWhole .stdout .ascii .strict ⟨"[", "]"⟩ [0x80] := by
  intro streams ended
  have hfails : ended.1 = .error (.undecodable ⟨.ascii, 0x80, 0⟩) := by decide +kernel
  have hgains : streams.Gains ended.2 .stdout "[" := by
    unfold Streams.Gains
    decide +kernel
  refine ⟨⟨rfl, fun _ _ => rfl⟩, rfl, hfails, hgains, ?_⟩
  rintro (⟨hok, -⟩ | ⟨-, hnothing⟩)
  · rw [hfails] at hok
    cases hok
  · rw [Streams.Gains, hgains] at hnothing
    exact absurd (List.append_cancel_left hnothing) (by decide +kernel)

end Output
end LineShell
