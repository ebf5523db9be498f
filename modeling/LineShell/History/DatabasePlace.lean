import LineShell.FileSystem

/-!
# Places of databases

The file of a database is found by the names in a path alone: each `..` takes back
the name before it, whether or not that stands for something, so a slash at the end
or a way through a directory that is not there does not matter.  Beside the file its
companions may stand, whose names begin with its own.
-/

namespace LineShell
namespace History
namespace DatabasePlace

/-! ## The file -/

/-- What no place on the way to a file may reach, in bytes. -/
def lengthLimit : Nat := 512

def length (place : Location) : Nat :=
  Path.size (FileSystem.render place)

/-- The place that the parts of a path lead to from a place by their names.  Every
place on the way has to be short enough, and what stands before a name must not be a
file; a directory there has no name that is too long. -/
def straighten? (fs : FileSystem) (place : Location) : List String → Option Location
  | [] => some place
  | part :: rest =>
    if Path.isIdle part then straighten? fs place rest
    else if part = ".." then straighten? fs place.dropLast rest
    else if lengthLimit ≤ length (place ++ [part]) then none
    else
      match fs.node? place with
      | some (.file ..) => none
      | some (.directory _) =>
        if Path.nameLimit < Path.size part then none
        else straighten? fs (place ++ [part]) rest
      | none => straighten? fs (place ++ [part]) rest

/-! ## The companions -/

/-- The files that may stand beside the file of a database: the journal of a change
that is not finished, the log of changes, the index of the log, and the directory
that is a lock. -/
inductive Companion where
  | journal
  | log
  | index
  | lock
  deriving DecidableEq, Repr

namespace Companion

/-- What the name of a companion adds to that of the file. -/
def ending : Companion → String
  | journal => "-journal"
  | log => "-wal"
  | index => "-shm"
  | lock => ".lock"

end Companion

def nameOf (place : Location) (companion : Companion) : String :=
  place.getLastD "" ++ companion.ending

def beside (place : Location) (companion : Companion) : Location :=
  place.dropLast ++ [nameOf place companion]

def hasRoom (place : Location) (companion : Companion) : Bool :=
  Path.size (nameOf place companion) ≤ Path.nameLimit

def companion? (fs : FileSystem) (place : Location) (companion : Companion) :
    Option Node :=
  fs.node? (beside place companion)

/-- The place of the file at a path; the root is none, and the path of the journal
must not be too long. -/
def ofPath? (fs : FileSystem) (path : String) : Option Location :=
  (straighten? fs [] (fs.origin path ++ Path.parts path)).filter fun place =>
    place ≠ [] ∧
      length place + Companion.journal.ending.utf8ByteSize ≤ lengthLimit

end DatabasePlace
end History
end LineShell
