import LineShell.History.Opening

/-!
# Open databases

A database is opened by a text that spells its address; the directories above what
the text names as a path are made where they are missing.  It stays open for some
time, is asked and changed, and is closed, when the companions go that only an open
database has.
-/

namespace LineShell
namespace History

open DatabasePlace

namespace OpenDatabase

/-! ## From closed to open -/

def inMemory : OpenDatabase :=
  ⟨.blank, none, none⟩

/-- Makes the directories above what a text names as a path. -/
def makeParent (fs : FileSystem) (text : String) : Except FileFault Unit × FileSystem :=
  match (Path.parent? text).filter fun parent => !parent.isEmpty && !fs.holds parent with
  | some parent => fs.makeDirs parent
  | none => (.ok (), fs)

def ofText (fs : FileSystem) (text : String) :
    Except StorageError OpenDatabase × FileSystem :=
  match makeParent fs text with
  | (.error fault, fs) => (.error (.database fault.message), fs)
  | (.ok (), fs) => (Opening.openText text).run.run fs

/-! ## Use -/

def backend (opened : OpenDatabase) : Backend Database :=
  match opened.obstacle with
  | none => Database.backend none
  | some obstacle => Database.hinderedBackend obstacle

/-- Writes the database to its file, if it has changed.  Without a log the journal
that a change is prepared in goes when it is done. -/
def save (opened : OpenDatabase) (fs : FileSystem) : FileSystem :=
  match opened.stored, opened.obstacle with
  | some stored, none =>
    let bytes := opened.db.encode stored.logged
    if holdsBytes (fs.node? stored.place) bytes then fs
    else
      let fs := if stored.inLog then fs else fs.drop (beside stored.place .journal)
      fs.addFile stored.place bytes
  | _, _ => fs
where
  /-- Whether a node is a file with some bytes. -/
  holdsBytes : Option Node → Bytes → Bool
    | some (.file old _), bytes => old = bytes
    | _, _ => false

def close (opened : OpenDatabase) (fs : FileSystem) : FileSystem :=
  (opened.stored.elim [] Stored.passing).foldl FileSystem.drop fs

def init (opened : OpenDatabase) : Except StorageError OpenDatabase :=
  let (result, db) := opened.backend.init opened.db
  result.map fun _ => { opened with db := db }

/-- Opens a database only if its text names something as a path and the database is
initialised. -/
def existing (fs : FileSystem) (text : String) :
    Except StorageError OpenDatabase × FileSystem :=
  if !fs.holds text then (.error .notInitialized, fs)
  else
    match ofText fs text with
    | (.ok opened, fs) =>
      if opened.db.isInitialized then (.ok opened, fs)
      else (.error .notInitialized, opened.close fs)
    | (.error e, fs) => (.error e, fs)

def initialized (fs : FileSystem) (text : String) :
    Except StorageError OpenDatabase × FileSystem :=
  match ofText fs text with
  | (.ok opened, fs) =>
    match opened.init with
    | .ok opened => (.ok opened, opened.save fs)
    | .error e => (.error e, opened.close fs)
  | (.error e, fs) => (.error e, fs)

def size? (fs : FileSystem) (text : String) : Option Nat :=
  match fs.find text with
  | .ok (.file bytes _) => some bytes.length
  | .ok (.directory _) => some 0
  | .error _ => none

def stats (opened : OpenDatabase) (fs : FileSystem) (text : String) :
    Except StorageError Stats := do
  let stats ← opened.backend.stats opened.db
  pure { stats with size := size? fs text }

end OpenDatabase
end History
end LineShell
