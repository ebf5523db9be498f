import LineShell.Binary
import LineShell.History.Database

/-!
# Database files

The bytes of a database: a mark, whether changes go to a log first, the schema's
table and the table of records.  A file of at most one byte counts as empty, which
is a database without tables; other bytes without the mark are no database.
-/

namespace LineShell
namespace History
namespace Database

open Binary

/-- The mark at the start of a file; it is no text. -/
def mark : Bytes := [0x89, 0x4C, 0x53, 0x48, 0x0D, 0x0A, 0x1A, 0x0A]

def ofFloat (x : Float) : Bytes :=
  littleEndian 8 x.toBits.toNat

def readFloat : Reader Float := do
  let bytes ← Reader.take 8
  pure (Float.ofBits (UInt64.ofNat (Reader.value bytes)))

def ofRecord (record : Record) : Bytes :=
  text record.input ++ ofFloat record.start ++ ofFloat record.stop ++
    option int32 record.returnCode ++ option text record.output

def readRecord : Reader Record := do
  let input ← Reader.text
  let start ← readFloat
  let stop ← readFloat
  let code ← Reader.option Reader.int32
  let output ← Reader.option Reader.text
  pure ⟨input, start, stop, code, output⟩

def ofRow (row : Row) : Bytes :=
  varint row.id ++ ofRecord row.record

def readRow : Reader Row := do
  let id ← Reader.varint 64
  let record ← readRecord
  pure ⟨id, record⟩

def ofTable (table : Table) : Bytes :=
  varint table.lastId ++ sequence ofRow table.rows

def readTable : Reader Table := do
  let lastId ← Reader.varint 64
  let rows ← Reader.sequence readRow
  pure ⟨rows, lastId⟩

/-- The bytes of a database, whose changes go to a log first or not. -/
def encode (logged : Bool) (db : Database) : Bytes :=
  mark ++ [if logged then 1 else 0] ++ option (option text) db.schema ++
    option ofTable db.table

/-- Reads whether changes go to a log, and the tables. -/
def read : Reader (Bool × Database) := do
  let flag ← Reader.take 1
  let schema ← Reader.option (Reader.option Reader.text)
  let table ← Reader.option readTable
  pure (flag = [1], ⟨schema, table⟩)

def isBlank (bytes : Bytes) : Bool :=
  bytes.length ≤ 1

/-- The database that bytes hold, with whether its changes go to a log. -/
def decode? (bytes : Bytes) : Option (Bool × Database) :=
  if isBlank bytes then some (false, blank)
  else if bytes.take mark.length = mark then
    match read.run ⟨bytes.drop mark.length, UInt64.size⟩ with
    | .ok (stored, _) => some stored
    | .error _ => none
  else none

end Database
end History
end LineShell
