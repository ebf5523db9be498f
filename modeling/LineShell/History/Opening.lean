import LineShell.History.Address
import LineShell.History.DatabasePlace
import LineShell.History.File

/-!
# Opening databases

Opening a database makes its file where that is missing, settles what its companions
tell of earlier changes, and turns the file into one whose changes go to a log
first.  Each step may fail; what was done before a fault stays.
-/

namespace LineShell
namespace History

open DatabasePlace Text

/-- How the file of a database is used: its place, whether it says that changes go to
a log, whether they do, and the companions that go when the database is closed. -/
structure Stored where
  place : Location
  logged : Bool
  inLog : Bool
  passing : List Location

/-- A database that is open, what keeps it from being changed, if anything does, and
its file, if it has one. -/
structure OpenDatabase where
  db : Database
  obstacle : Option StorageError
  stored : Option Stored

/-- A step of opening a database, which changes files and may fail. -/
abbrev Opening := ExceptT StorageError (StateM FileSystem)

namespace Opening

/-- The report of a place where no file can be opened. -/
def cannotOpen : StorageError :=
  .database "unable to open database file"

/-- The report of something that cannot be read or written like a file. -/
def deviceFault : StorageError :=
  .database "disk I/O error"

def addFile (place : Location) (bytes : Bytes) : Opening Unit :=
  modify fun fs => fs.addFile place bytes

def drop (place : Location) : Opening Unit :=
  modify fun fs => fs.drop place

variable (address : Address) (place : Location)

/-- Takes the directory that is the lock, for a moment. -/
def checkLock : Opening Unit := do
  if address.locksDirectory then
    if (companion? (← get) place .lock).isSome then
      throw (.database "database is locked")
    if !hasRoom place .lock then throw deviceFault

/-- Settles a journal that was left behind.  That of a blank database goes; one that
begins with a zero is void; any other is of no further use either, but has to go
before the database is read.  A lock that is not heeded tells that the journal is
another one's. -/
def settleJournal (blank : Bool) : Opening Unit := do
  let fs ← get
  if address.carrier = .lockDirectory ∧ address.unlocked ∧
      (companion? fs place .lock).isSome then
    return
  match companion? fs place .journal, blank with
  | some (.directory _), false => throw deviceFault
  | some (.file (_ :: _) _), true =>
    if address.mode ≠ .readOnly ∨ !address.keepsLog then drop (beside place .journal)
  | some (.file (first :: _) _), false =>
    if first ≠ 0 then
      if address.mode = .readOnly then throw Database.refused
      drop (beside place .journal)
  | _, _ => return

/-- A log that is open: what keeps changes out of it, if anything does, and the
companions that go when it is closed. -/
structure Log where
  obstacle : Option StorageError
  passing : List Location

/-- Finds the log, or makes one, and tells its bytes. -/
def takeLog : Opening Bytes := do
  match companion? (← get) place .log with
  | some (.directory _) => throw cannotOpen
  | some (.file bytes _) => return bytes
  | none =>
    addFile (beside place .log) []
    return []

/-- Whether a log has a head with a mark of its own, which an index that was not
written for it does not have. -/
def isMarked (log : Bytes) : Bool :=
  32 ≤ log.length && ((log.drop 16).take 8).any (· ≠ 0)

/-- How an index begins; it is no text. -/
def indexMark : Bytes := [0x18, 0xE2, 0x2D, 0x00]

/-- Opens the log with its index.  An index that is only read keeps changes out; one
that is missing then, or does not belong to the log, makes the log useless.  One who
only reads the database cannot tidy up. -/
def openLog : Opening Log := do
  let log ← takeLog place
  if address.hidesIndex then return ⟨none, [beside place .log]⟩
  match companion? (← get) place .index, address.fixedIndex with
  | none, true => throw cannotOpen
  | some (.directory _), _ | some (.file ..), true =>
    if isMarked log then throw (.database "locking protocol")
    return ⟨Database.refused, []⟩
  | _, false =>
    addFile (beside place .index) indexMark
    return ⟨none, if address.mode = .readOnly then []
      else [beside place .log, beside place .index]⟩

/-- Settles a log that was left behind: it goes if the database is blank, and is
opened otherwise. -/
def settleLog (blank : Bool) : Opening (Option Log) := do
  match companion? (← get) place .log, blank with
  | none, _ | some (.file [] _), _ => return none
  | some (.directory _), true => throw deviceFault
  | some (.file ..), true =>
    drop (beside place .log)
    return none
  | some _, false =>
    if !address.keepsLog then throw cannotOpen
    openLog address place

def lacksJournal (fs : FileSystem) : Bool :=
  !hasRoom place .journal || fs.isDirectoryAt (beside place .journal)

def writeThrough (logged : Bool) (db : Database) : Opening Unit := do
  if lacksJournal place (← get) then throw cannotOpen
  drop (beside place .journal)
  addFile place (db.encode logged)

/-- Brings changes into the log if they can go there, so that the file says so, and
tells whether it does.  A file that says so is of no use without a log. -/
def turnToLog (logged : Bool) (db : Database) : Opening (Bool × Option Log) := do
  if address.immutable then return (logged, none)
  match logged, address.keepsLog with
  | true, true => return (true, ← openLog address place)
  | true, false => throw cannotOpen
  | false, false => return (false, none)
  | false, true =>
    if !address.isWritable then throw Database.refused
    writeThrough place true db
    return (true, ← openLog address place)

def obstacleOf (log : Option Log) : Opening (Option StorageError) := do
  if !address.isWritable then return Database.refused
  match log with
  | some log => return log.obstacle
  | none => return if lacksJournal place (← get) then some cannotOpen else none

/-- Settles what the companions tell; a file that nobody changes needs none. -/
def settle (blank : Bool) : Opening (Option Log) := do
  if address.immutable then return none
  checkLock address place
  settleJournal address place blank
  settleLog address place blank

def openBytes (bytes : Bytes) : Opening OpenDatabase := do
  let left ← settle address place (Database.isBlank bytes)
  match Database.decode? bytes with
  | none =>
    (left.elim [] Log.passing).forM drop
    throw (.database "file is not a database")
  | some (marked, db) =>
    let (logged, log) ← match left with
      | some log => pure (marked, some log)
      | none => turnToLog address place marked db
    return ⟨db, ← obstacleOf address place log,
      some ⟨place, logged, log.isSome, log.elim [] Log.passing⟩⟩

def openPlace : Opening OpenDatabase := do
  let fs ← get
  match fs.node? place with
  | some (.file bytes _) => openBytes address place bytes
  | some (.directory _) =>
    throw (if address.mode = .readOnly then deviceFault else cannotOpen)
  | none =>
    if address.mode ≠ .create ∨ !fs.isDirectoryAt place.dropLast then throw cannotOpen
    addFile place []
    openBytes address place []

/-- Whether the file whose rights a new one gets is there. -/
def hasPattern (fs : FileSystem) : Bool :=
  match address.pattern with
  | none => true
  | some path =>
    match fs.reach path with
    | .ok place => (fs.node? place).isSome
    | .error _ => false

def openAddress : Opening OpenDatabase := do
  if address.hasFile then
    match ofPath? (← get) address.path with
    | none => throw cannotOpen
    | some place =>
      if !hasPattern address (← get) then throw deviceFault
      openPlace address place
  else
    if address.isTooLong then throw cannotOpen
    return ⟨.blank, if address.isWritable then none else some Database.refused, none⟩

/-- Opens the database at the address that a text spells, if it can be one. -/
def openText (text : String) : Opening OpenDatabase := do
  match (Utf8.encode text).idxOf? 0, Address.ofText text with
  | some position, _ =>
    throw (.database ("nul byte found in provided data at position: " ++
      Numeral.naturalText position))
  | none, .error reason => throw (.database reason)
  | none, .ok address => openAddress address

end Opening
end History
end LineShell
