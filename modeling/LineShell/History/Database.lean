import LineShell.History.Backend

/-!
# Histories in a database

A database has a table with the version of its schema and a table of records.
Either may be missing, and the version may be missing or be no number, because
the database can be changed from outside.  A time that is no number has no place
in the table of records, and a negative zero is kept as zero.  A query sorts the rows
that it wants by their numbers, the last one first, takes some of them and sorts those
the other way.
-/

namespace LineShell
namespace History

open Text

/-- A row of the table of records. -/
structure Row where
  id : Nat
  record : Record

namespace Row

/-- Whether a row has a place for the text that is looked for, if there is one. -/
def meets (needle : Option String) (row : Row) : Bool :=
  match needle with
  | none => true
  | some text => 0 < placeOf text.toList row.record.input.toList

end Row

/-- The table of records, with the largest number that a row ever had; rows that were
removed keep theirs from being given again. -/
structure Table where
  rows : List Row
  lastId : Nat

namespace Table

def empty : Table :=
  ⟨[], 0⟩

def insert (record : Record) (table : Table) : Table :=
  ⟨table.rows ++ [⟨table.lastId + 1, record⟩], table.lastId + 1⟩

def clear (table : Table) : Table :=
  { table with rows := [] }

/-- The records, the newest one first. -/
def newest (table : Table) : List Record :=
  (table.rows.map Row.record).reverse

/-- The largest limit that a query can be given. -/
def limitBound : Nat := Nat.pow 2 63 - 1

/-- The last rows, at most a number of them, of those that meet a text. -/
def recent (needle : Option String) (limit : Nat) (table : Table) : List Row :=
  let wanted := table.rows.filter (Row.meets needle)
  let last := (wanted.mergeSort fun row other => other.id ≤ row.id).take (min limit limitBound)
  last.mergeSort fun row other => row.id ≤ other.id

end Table

/-- The tables of a database: the schema's, with the text of the version if there
is one, and the table of records. -/
structure Database where
  schema : Option (Option String)
  table : Option Table

namespace Database

def blank : Database :=
  ⟨none, none⟩

def isInitialized (db : Database) : Bool :=
  db.schema.isSome

/-- The version of the schema, if its text is a number. -/
def version? (db : Database) : Option UInt32 :=
  (db.schema.bind id).bind fun text => Numeral.word32? text.toList

def currentVersion : String :=
  Numeral.naturalText schemaVersion.toNat

def isOutdated (db : Database) : Bool :=
  match db.version? with
  | some version => version < schemaVersion
  | none => false

/-- Makes the tables where the schema's table is missing, and brings an older
version up to date. -/
def init (db : Database) : Database :=
  match db.schema with
  | none => ⟨some (some currentVersion), some (db.table.getD .empty)⟩
  | some _ => if db.isOutdated then { db with schema := some (some currentVersion) } else db

/-- The records, the newest one first, if there is a table of them. -/
def records (db : Database) : Option (List Record) :=
  db.table.map Table.newest

/-- The table of records of a database that is ready for use. -/
def opened (db : Database) : Except StorageError Table :=
  if db.isInitialized then
    match db.table with
    | some table => .ok table
    | none => .error (.database "no such table: history")
  else .error .notInitialized

def rows (db : Database) : Except StorageError (List Record) :=
  db.opened.map Table.newest

def storedTime (column : String) (time : Float) : Except StorageError Float :=
  if time.isNaN then
    .error (.database ("NOT NULL constraint failed: history." ++ column))
  else if time == 0 then .ok 0
  else .ok time

def storedRecord (record : Record) : Except StorageError Record := do
  let start ← storedTime "ts_start" record.start
  let stop ← storedTime "ts_end" record.stop
  pure { record with start := start, stop := stop }

def append (record : Record) (db : Database) : Except StorageError Database := do
  let table ← db.opened
  let record ← storedRecord record
  pure { db with table := some (table.insert record) }

/-- The answer of a change: a failed one changes nothing. -/
def changed (db : Database) (result : Except StorageError Database) :
    Except StorageError Unit × Database :=
  match result with
  | .ok db => (.ok (), db)
  | .error e => (.error e, db)

/-- A history in a database; the size of its file is given. -/
def backend (size : Option Nat) : Backend Database where
  append record db := db.changed (append record db)
  init db := (.ok (), init db)
  isInitialized := isInitialized
  find needle limit db := do
    let table ← db.opened
    pure ((table.recent needle limit).map Row.record)
  count db := do
    let records ← db.rows
    pure records.length
  clear db :=
    match db.opened with
    | .ok table => (.ok table.rows.length, { db with table := some table.clear })
    | .error e => (.error e, db)
  stats db := do
    let records ← db.rows
    pure ⟨records.length, (records.filter Record.failed).length,
      (db.version?).getD 0, size⟩

/-- The fault of a change to a database that may only be read. -/
def refused : StorageError :=
  .database "attempt to write a readonly database"

/-- The answer of a change that meets an obstacle; a fault of the database itself
comes before that. -/
def hinder {α : Type} (obstacle : StorageError) (db : Database) :
    Except StorageError α × Database :=
  (db.rows.bind fun _ => .error obstacle, db)

/-- A history in a database in which every change meets an obstacle. -/
def hinderedBackend (obstacle : StorageError) : Backend Database :=
  { backend none with
    append := fun _ db => db.hinder obstacle
    init := fun db =>
      (if db.isInitialized && !db.isOutdated then .ok () else .error obstacle, db)
    clear := hinder obstacle }

/-- Writes or deletes the text of the version from outside, and counts the rows
that change; without the schema's table that fails. -/
def setVersion? (text : Option String) (db : Database) : Option (Nat × Database) :=
  match db.schema with
  | none => none
  | some none => some (0, db)
  | some (some _) => some (1, { db with schema := some text })

/-- Deletes the table of records from outside, if it is there. -/
def dropRecords? (db : Database) : Option Database :=
  db.records.map fun _ => { db with table := none }

end Database
end History
end LineShell
