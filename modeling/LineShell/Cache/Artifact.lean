import LineShell.Binary
import LineShell.Cache.Key
import LineShell.CompiledUnit

/-!
# Artifacts

The bytes of a cache entry: the length of a header, the header and a unit in the
binary format.  The header names the format and its version, the stamp and the
digest of the unit's bytes.  Reading checks each in turn and trusts nothing that
does not fit.
-/

namespace LineShell
namespace Cache

open Binary Text

/-- Why the cache fails. -/
inductive CacheError where
  | io (path reason : String)
  | invalidHeader (reason : String)
  | versionMismatch (expected actual : UInt32)
  | stale (expected actual : String)
  | checksumMismatch (expected actual : String)
  | serialization (reason : String)
  deriving DecidableEq, Repr

namespace CacheError

def message : CacheError → String
  | io path reason => "cache I/O error at " ++ path ++ ": " ++ reason
  | invalidHeader reason => "invalid artifact header: " ++ reason
  | versionMismatch expected actual =>
    "version mismatch: expected " ++ Numeral.naturalText expected.toNat ++ ", got " ++
      Numeral.naturalText actual.toNat
  | stale expected actual =>
    "stale entry: fingerprint " ++ actual ++ " does not match " ++ expected
  | checksumMismatch expected actual =>
    "checksum mismatch: expected " ++ expected ++ ", got " ++ actual
  | serialization reason => "serialization error: " ++ reason

def ofBinary (e : Binary.Error) : CacheError :=
  serialization e.message

end CacheError

namespace Artifact

def magic : Bytes := [0x49, 0x4E, 0x43, 0x53]

def version : UInt32 := 1

/-- What a header says. -/
structure Header where
  magic : Bytes
  version : UInt32
  stamp : Stamp
  checksum : BitVec 128
  deriving DecidableEq, Repr

namespace Header

def encode (header : Header) : Bytes :=
  header.magic ++ varint header.version.toNat ++ text header.stamp.text ++
    varint header.checksum.toNat

def read : Reader Header := do
  let magic ← Reader.items Reader.rawByte 4
  let version ← Reader.word32
  let stamp ← Reader.text
  let checksum ← Reader.varint 128
  pure ⟨magic, version, ⟨stamp⟩, BitVec.ofNat 128 checksum⟩

end Header

def ofMode : Mode → Bytes
  | .single => varint 0
  | .exec => varint 1

def readMode : Reader Mode := do
  match ← Reader.choice 2 with
  | 0 => pure .single
  | _ => pure .exec

def ofUnit (unit : CompiledUnit) : Bytes :=
  text unit.source ++ ofMode unit.mode ++ text unit.filename ++
    sequence (fun b => [b]) unit.code

def readUnit : Reader CompiledUnit := do
  let source ← Reader.text
  let mode ← readMode
  let filename ← Reader.text
  let code ← Reader.sequence Reader.rawByte
  pure ⟨source, mode, filename, code⟩

def encode (digest : DigestFunction) (unit : CompiledUnit) (stamp : Stamp) :
    Except CacheError Bytes :=
  let payload := ofUnit unit
  let header := Header.encode ⟨magic, version, stamp, digest payload⟩
  if header.length < UInt32.size then .ok (littleEndian 4 header.length ++ header ++ payload)
  else .error (.invalidHeader "header too large")

/-- Refuses a header that does not fit what is expected of it. -/
def Header.check (digest : DigestFunction) (header : Header) (expected : Stamp)
    (payload : Bytes) : Except CacheError Unit :=
  if header.magic ≠ Artifact.magic then .error (.invalidHeader "bad magic bytes")
  else if header.version ≠ Artifact.version then
    .error (.versionMismatch Artifact.version header.version)
  else if header.stamp ≠ expected then .error (.stale expected.text header.stamp.text)
  else if digest payload ≠ header.checksum then
    .error (.checksumMismatch (Key.render ⟨header.checksum⟩) (Key.render ⟨digest payload⟩))
  else .ok ()

/-- The unit of an entry that was written under a stamp. -/
def decode (digest : DigestFunction) (raw : Bytes) (expected : Stamp) :
    Except CacheError CompiledUnit := do
  let front := raw.take 4
  if front.length < 4 then throw (.invalidHeader "truncated header length")
  let rest := raw.drop 4
  let length := Reader.value front
  if rest.length < length then
    throw (.invalidHeader ("header claims " ++ Numeral.naturalText length ++ " bytes, " ++
      Numeral.naturalText rest.length ++ " available"))
  let header ← (Reader.decode Header.read (rest.take length)).mapError CacheError.ofBinary
  let payload := rest.drop length
  header.check digest expected payload
  (Reader.decode readUnit payload).mapError CacheError.ofBinary

end Artifact
end Cache
end LineShell
