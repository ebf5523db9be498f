import LineShell.Cache.Artifact
import LineShell.Proofs.Binary.Spelling
import Mathlib.Tactic

/-!
# Artifacts read back

What is written as an artifact is read back as the unit that was written, and only
under the stamp that it was written with.  The function that checks the bytes plays
no part in this: it is computed from the same bytes on both sides.
-/

namespace LineShell
namespace Cache
namespace Artifact

open Binary Binary.Reader Text

/-! ## The parts of an artifact -/

def Header.size (header : Header) : Nat :=
  4 + (4 + (8 + (Utf8.encode header.stamp.text).length + 16))

def unitSize (unit : CompiledUnit) : Nat :=
  8 + (Utf8.encode unit.source).length +
    (4 + (8 + (Utf8.encode unit.filename).length + (8 + unit.code.length)))

theorem spells_rawBytes (bytes : Bytes) :
    Spells (items rawByte bytes.length) bytes bytes bytes.length := by
  have hbytes : Spells (items rawByte bytes.length) bytes (bytes.flatMap fun b => [b])
      (bytes.map fun _ => 1).sum :=
    spells_items fun b _ => spells_rawByte b
  exact hbytes.cast (by simp) (by simp)

theorem Header.spells {header : Header} (hmagic : header.magic.length = 4) :
    Spells Header.read header header.encode header.size := by
  obtain ⟨magic, version, ⟨stamp⟩, checksum⟩ := header
  have hchecksum : Spells (varint 128) checksum.toNat (Binary.varint checksum.toNat) 16 :=
    spells_varint (Or.inr (Or.inr rfl)) checksum.isLt
  have hbytes : Spells (items rawByte 4) magic magic 4 := by
    have hraw := spells_rawBytes magic
    rwa [show magic.length = 4 from hmagic] at hraw
  have hlast := hchecksum.map fun n =>
    (⟨magic, version, ⟨stamp⟩, BitVec.ofNat 128 n⟩ : Header)
  rw [BitVec.ofNat_toNat, BitVec.setWidth_eq, map_eq_pure_bind] at hlast
  have hread : Spells Header.read ⟨magic, version, ⟨stamp⟩, checksum⟩
      (magic ++ (Binary.varint version.toNat ++
        (Binary.text stamp ++ Binary.varint checksum.toNat)))
      (4 + (4 + (8 + (Utf8.encode stamp).length + 16))) :=
    hbytes.bind ((spells_word32 version).bind ((spells_text stamp).bind hlast))
  exact hread.cast (by simp only [encode, List.append_assoc]) rfl

theorem spells_mode (mode : Mode) : Spells readMode mode (ofMode mode) 4 := by
  cases mode with
  | single =>
    have hindex := spells_choice (by decide : 0 < 2) (by decide)
    have hread : Spells readMode .single (Binary.varint 0 ++ []) (4 + 0) :=
      hindex.bind (spells_pure Mode.single)
    exact hread.cast (List.append_nil _) rfl
  | exec =>
    have hindex := spells_choice (by decide : 1 < 2) (by decide)
    have hread : Spells readMode .exec (Binary.varint 1 ++ []) (4 + 0) :=
      hindex.bind (spells_pure Mode.exec)
    exact hread.cast (List.append_nil _) rfl

theorem spells_unit (unit : CompiledUnit) :
    Spells readUnit unit (ofUnit unit) (unitSize unit) := by
  obtain ⟨source, mode, filename, code⟩ := unit
  have hcode : Spells (sequence rawByte) code (Binary.sequence (fun b => [b]) code)
      (8 + code.length) := by
    have hbytes : Spells (items rawByte code.length) code (code.flatMap fun b => [b])
        code.length :=
      (spells_rawBytes code).cast (by simp) rfl
    exact spells_lengthFirst hbytes (le_refl _)
  have hlast := hcode.map fun code => (⟨source, mode, filename, code⟩ : CompiledUnit)
  rw [map_eq_pure_bind] at hlast
  have hread : Spells readUnit ⟨source, mode, filename, code⟩
      (Binary.text source ++ (ofMode mode ++
        (Binary.text filename ++ Binary.sequence (fun b => [b]) code)))
      (8 + (Utf8.encode source).length +
        (4 + (8 + (Utf8.encode filename).length + (8 + code.length)))) :=
    (spells_text source).bind ((spells_mode mode).bind ((spells_text filename).bind hlast))
  exact hread.cast (by simp only [ofUnit, List.append_assoc]) rfl

/-! ## The whole artifact -/

def headerOf (digest : DigestFunction) (unit : CompiledUnit) (stamp : Stamp) : Header :=
  ⟨magic, version, stamp, digest (ofUnit unit)⟩

theorem encode_eq_ok
    {digest : DigestFunction} {unit : CompiledUnit} {stamp : Stamp} {raw : Bytes}
    (hraw : encode digest unit stamp = .ok raw) :
    (headerOf digest unit stamp).encode.length < UInt32.size ∧
      raw = littleEndian 4 (headerOf digest unit stamp).encode.length ++
        (headerOf digest unit stamp).encode ++ ofUnit unit := by
  unfold encode at hraw
  dsimp only at hraw
  split at hraw
  · rename_i hlength
    exact ⟨hlength, (Except.ok.inj hraw).symm⟩
  · cases hraw

/-- Reading an artifact reads the header off its stretch and the unit off the
rest. -/
theorem decode_framed
    (digest : DigestFunction) (expected : Stamp) {header : Bytes} (payload : Bytes)
    (hlength : header.length < UInt32.size) :
    decode digest (littleEndian 4 header.length ++ header ++ payload) expected = (do
      let header ← (Reader.decode Header.read header).mapError CacheError.ofBinary
      header.check digest expected payload
      (Reader.decode readUnit payload).mapError CacheError.ofBinary) := by
  have hfront : (littleEndian 4 header.length ++ header ++ payload).take 4 =
      littleEndian 4 header.length := by
    rw [List.append_assoc, List.take_left' (length_littleEndian 4 _)]
  have hrest : (littleEndian 4 header.length ++ header ++ payload).drop 4 =
      header ++ payload := by
    rw [List.append_assoc, List.drop_left' (length_littleEndian 4 _)]
  have hvalue : Reader.value (littleEndian 4 header.length) = header.length :=
    value_littleEndian (lt_of_lt_of_eq hlength (by decide))
  unfold decode
  simp only [hfront, hrest, hvalue, length_littleEndian, List.take_left, List.drop_left,
    List.length_append]
  rw [if_neg (by omega), if_neg (by omega)]

/-- The header of an artifact fits the artifact, and nothing but another stamp is
held against it. -/
theorem check_headerOf
    (digest : DigestFunction) (unit : CompiledUnit) (stamp expected : Stamp) :
    (headerOf digest unit stamp).check digest expected (ofUnit unit) =
      if stamp = expected then .ok () else .error (.stale expected.text stamp.text) := by
  unfold Header.check headerOf
  by_cases hstamp : stamp = expected
  · simp [hstamp]
  · simp [hstamp]

/-- What was written is found again exactly under its own stamp, as long as header
and unit stay within the limit. -/
theorem decode_eq_ok_iff
    {digest : DigestFunction} {unit : CompiledUnit} {stamp : Stamp} {raw : Bytes}
    (hraw : encode digest unit stamp = .ok raw) (expected : Stamp) (found : CompiledUnit) :
    decode digest raw expected = .ok found ↔
      (stamp = expected ∧ found = unit) ∧
        (headerOf digest unit stamp).size ≤ limit ∧ unitSize unit ≤ limit := by
  obtain ⟨hlength, hbytes⟩ := encode_eq_ok hraw
  have hheader : ∀ header, Reader.decode Header.read (headerOf digest unit stamp).encode =
      .ok header ↔ (headerOf digest unit stamp).size ≤ limit ∧
        header = headerOf digest unit stamp := by
    intro header
    have hspells : Spells Header.read (headerOf digest unit stamp) _ _ := Header.spells rfl
    have hdecode := hspells.decode_eq_ok_iff [] header
    rwa [List.append_nil] at hdecode
  have hunit : ∀ found, Reader.decode readUnit (ofUnit unit) = .ok found ↔
      unitSize unit ≤ limit ∧ found = unit := by
    intro found
    have hdecode := (spells_unit unit).decode_eq_ok_iff [] found
    rwa [List.append_nil] at hdecode
  rw [hbytes, decode_framed digest expected _ hlength]
  by_cases hsize : (headerOf digest unit stamp).size ≤ limit
  · have hread := (hheader _).mpr ⟨hsize, rfl⟩
    simp only [hread, Except.mapError, bind, Except.bind, check_headerOf]
    by_cases hstamp : stamp = expected
    · subst hstamp
      rw [if_pos rfl]
      cases hpayload : Reader.decode readUnit (ofUnit unit) with
      | ok written =>
        have hwritten := (hunit written).mp hpayload
        simp [hsize, hwritten, eq_comm]
      | error e =>
        have hlarge : ¬ unitSize unit ≤ limit := by
          intro hfits
          rw [(hunit unit).mpr ⟨hfits, rfl⟩] at hpayload
          cases hpayload
        simp [hlarge]
    · simp [hstamp]
  · cases hread : Reader.decode Header.read (headerOf digest unit stamp).encode with
    | ok header => exact absurd ((hheader header).mp hread).1 hsize
    | error e =>
      constructor
      · intro hfound
        cases hfound
      · intro hboth
        exact absurd hboth.2.1 hsize

/-! ## Artifacts that are whole and artifacts that are cut off -/

theorem Header.length_encode_le (header : Header) :
    header.encode.length ≤
      header.magic.length + (Utf8.encode header.stamp.text).length + 51 := by
  have hversion := length_varint_le header.version.toNat
  have hlength := length_varint_le (Utf8.encode header.stamp.text).length
  have hchecksum := length_varint_le header.checksum.toNat
  simp only [Header.encode, Binary.text, List.length_append]
  omega

/-- The length of a header within the limit can be written. -/
theorem encode_of_size_le
    {digest : DigestFunction} {unit : CompiledUnit} {stamp : Stamp}
    (hsize : (headerOf digest unit stamp).size ≤ limit) :
    ∃ raw, encode digest unit stamp = .ok raw := by
  have hlength := (headerOf digest unit stamp).length_encode_le
  have hmagic : (headerOf digest unit stamp).magic.length = 4 := rfl
  have hshort : (headerOf digest unit stamp).encode.length < UInt32.size := by
    unfold Header.size limit at hsize
    simp only [UInt32.size]
    omega
  exact ⟨_, if_pos hshort⟩

/-- Under another stamp than its own an artifact is stale, whatever its unit. -/
theorem decode_of_stamp_ne
    {digest : DigestFunction} {unit : CompiledUnit} {stamp expected : Stamp} {raw : Bytes}
    (hraw : encode digest unit stamp = .ok raw) (hstamp : stamp ≠ expected)
    (hsize : (headerOf digest unit stamp).size ≤ limit) :
    decode digest raw expected = .error (.stale expected.text stamp.text) := by
  obtain ⟨hlength, hbytes⟩ := encode_eq_ok hraw
  have hspells : Spells Header.read (headerOf digest unit stamp) _ _ := Header.spells rfl
  have hread : Reader.decode Header.read (headerOf digest unit stamp).encode =
      .ok (headerOf digest unit stamp) := by
    have hdecode := hspells.decode_eq_ok_iff [] (headerOf digest unit stamp)
    rw [List.append_nil] at hdecode
    exact hdecode.mpr ⟨hsize, rfl⟩
  rw [hbytes, decode_framed digest expected _ hlength]
  simp only [hread, Except.mapError, bind, Except.bind, check_headerOf, if_neg hstamp]

theorem decode_of_length_lt_four
    {raw : Bytes} (hraw : raw.length < 4) (digest : DigestFunction) (expected : Stamp) :
    ∃ e, decode digest raw expected = .error e := by
  have hfront : (raw.take 4).length < 4 := by
    rw [List.length_take]
    omega
  refine ⟨.invalidHeader "truncated header length", ?_⟩
  unfold decode
  simp only [hfront, if_true]
  rfl

theorem decode_of_missing_header
    {n : Nat} (hn : n < UInt32.size) {rest : Bytes} (hrest : rest.length < n)
    (digest : DigestFunction) (expected : Stamp) :
    ∃ e, decode digest (littleEndian 4 n ++ rest) expected = .error e := by
  have hfront : (littleEndian 4 n ++ rest).take 4 = littleEndian 4 n :=
    List.take_left' (length_littleEndian 4 n)
  have hdrop : (littleEndian 4 n ++ rest).drop 4 = rest :=
    List.drop_left' (length_littleEndian 4 n)
  have hvalue : Reader.value (littleEndian 4 n) = n :=
    value_littleEndian (lt_of_lt_of_eq hn (by decide))
  refine ⟨.invalidHeader ("header claims " ++ Numeral.naturalText n ++ " bytes, " ++
    Numeral.naturalText rest.length ++ " available"), ?_⟩
  unfold decode
  simp only [hfront, hdrop, hvalue, length_littleEndian, if_pos hrest]
  rfl

/-- Whatever header stands before them, bytes that no unit can be read from make no
artifact. -/
theorem decode_of_unreadable_unit
    {header payload : Bytes} (hlength : header.length < UInt32.size)
    (hpayload : ∃ e, Reader.decode readUnit payload = .error e)
    (digest : DigestFunction) (expected : Stamp) :
    ∃ e, decode digest (littleEndian 4 header.length ++ header ++ payload) expected =
      .error e := by
  obtain ⟨e, he⟩ := hpayload
  rw [decode_framed digest expected payload hlength, he]
  cases Reader.decode Header.read header with
  | error e => exact ⟨_, rfl⟩
  | ok found =>
    simp only [Except.mapError, bind, Except.bind]
    cases found.check digest expected payload with
    | error e => exact ⟨e, rfl⟩
    | ok done => exact ⟨_, rfl⟩

/-- A cut leaves too little for the length of the header, for the header itself, or
for the unit.  In the last case it may be that the digest of what is left agrees with
the header, and it is the unit that cannot be read. -/
theorem decode_of_cut
    {digest : DigestFunction} {unit : CompiledUnit} {stamp : Stamp} {raw front : Bytes}
    (hraw : encode digest unit stamp = .ok raw) (hfront : front <+: raw) (hcut : front ≠ raw)
    (expected : Stamp) : ∃ e, decode digest front expected = .error e := by
  obtain ⟨hlength, hbytes⟩ := encode_eq_ok hraw
  obtain ⟨back, hback, hne⟩ := exists_back_of_cut hfront hcut
  rw [hbytes, List.append_assoc] at hback
  rcases List.append_eq_append_iff.mp hback with
    ⟨missing, hmark, -⟩ | ⟨framed, hfront, hrest⟩
  · have hshort : front.length + missing.length = 4 := by
      rw [← List.length_append, ← hmark, length_littleEndian]
    by_cases hnil : missing = []
    · rw [hnil, List.append_nil] at hmark
      rw [← hmark, ← List.append_nil (littleEndian 4 _)]
      apply decode_of_missing_header hlength
      simp [headerOf, Header.encode, magic]
    · have hpos := List.length_pos_of_ne_nil hnil
      exact decode_of_length_lt_four (by omega) digest expected
  · rw [hfront]
    rcases List.append_eq_append_iff.mp hrest.symm with
      ⟨missing, hheader, hunit⟩ | ⟨payload, hheader, hunit⟩
    · by_cases hnil : missing = []
      · rw [hnil, List.append_nil] at hheader
        rw [← hheader, ← List.append_nil (littleEndian 4 _ ++ _)]
        apply decode_of_unreadable_unit hlength
        rw [hnil, List.nil_append] at hunit
        exact (spells_unit unit).decode_of_cut (List.nil_append _) (hunit ▸ hne)
      · have hpos := List.length_pos_of_ne_nil hnil
        apply decode_of_missing_header hlength
        rw [hheader, List.length_append]
        omega
    · rw [hheader, ← List.append_assoc]
      apply decode_of_unreadable_unit hlength
      exact (spells_unit unit).decode_of_cut hunit.symm hne

/-- An artifact whose header and unit stay within the limit is read back as the unit
that was written under its own stamp, and is stale under any other.  What a cut
leaves of an artifact is refused under every stamp, whatever the digest does. -/
theorem artifact_whole_or_refused
    (digest : DigestFunction) (unit : CompiledUnit) (stamp expected : Stamp) :
    ((headerOf digest unit stamp).size ≤ limit → unitSize unit ≤ limit →
      ∃ raw, encode digest unit stamp = .ok raw ∧
        decode digest raw expected =
          if expected = stamp then .ok unit
          else .error (.stale expected.text stamp.text)) ∧
    ∀ raw front, encode digest unit stamp = .ok raw → front <+: raw → front ≠ raw →
      ∃ e, decode digest front expected = .error e := by
  constructor
  · intro hheader hunit
    obtain ⟨raw, hraw⟩ := encode_of_size_le hheader
    refine ⟨raw, hraw, ?_⟩
    by_cases hstamp : expected = stamp
    · rw [if_pos hstamp]
      exact (decode_eq_ok_iff hraw expected unit).mpr ⟨⟨hstamp.symm, rfl⟩, hheader, hunit⟩
    · rw [if_neg hstamp]
      exact decode_of_stamp_ne hraw (Ne.symm hstamp) hheader
  · intro raw front hraw hfront hcut
    exact decode_of_cut hraw hfront hcut expected

/-- A digest that tells no two payloads apart does not let a torn artifact pass. -/
theorem torn_artifact_refused_despite_collision :
    let digest : DigestFunction := fun _ => 0
    let unit : CompiledUnit := ⟨"echo é\n", .single, "<stdin>", [0, 1]⟩
    ∃ raw, encode digest unit ⟨"v1"⟩ = .ok raw ∧
      decode digest raw ⟨"v1"⟩ = .ok unit ∧
      decode digest raw ⟨"v2"⟩ = .error (.stale "v2" "v1") ∧
      ∃ e, decode digest raw.dropLast ⟨"v1"⟩ = .error e := by
  intro digest unit
  have hheader : (headerOf digest unit ⟨"v1"⟩).size ≤ limit := by decide +kernel
  have hunit : unitSize unit ≤ limit := by decide +kernel
  obtain ⟨raw, hraw, hown⟩ :=
    (artifact_whole_or_refused digest unit ⟨"v1"⟩ ⟨"v1"⟩).1 hheader hunit
  obtain ⟨other, hother, hstale⟩ :=
    (artifact_whole_or_refused digest unit ⟨"v1"⟩ ⟨"v2"⟩).1 hheader hunit
  obtain rfl : raw = other := Except.ok.inj (hraw.symm.trans hother)
  have hcut : raw.dropLast ≠ raw := by
    intro hsame
    have hlength := congrArg List.length hsame
    rw [(encode_eq_ok hraw).2] at hlength
    simp at hlength
  exact ⟨raw, hraw, hown, hstale,
    (artifact_whole_or_refused digest unit ⟨"v1"⟩ ⟨"v1"⟩).2 raw raw.dropLast hraw
      (List.dropLast_prefix raw) hcut⟩

end Artifact
end Cache
end LineShell
