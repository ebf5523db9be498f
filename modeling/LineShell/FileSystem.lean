import LineShell.Bindings
import LineShell.Path
import LineShell.Text.Utf8

/-!
# Files and directories

A file system binds places, which are lists of names from the root, to
directories and files, and has a current directory, from which relative paths
are read.  Every operation finds its place by following the parts of a path, and
each part but the last must lead to a directory.
-/

namespace LineShell

/-- What stands at a place: a directory, or a file with its bytes; each with the time
of the last change of its entries or its bytes, in nanoseconds. -/
inductive Node where
  | directory (modified : Int)
  | file (bytes : Bytes) (modified : Int)
  deriving DecidableEq, Repr

namespace Node

def time : Node → Int
  | directory modified => modified
  | file _ modified => modified

def isDirectory : Node → Bool
  | directory _ => true
  | file .. => false

end Node

/-- A place: the names from the root. -/
abbrev Location := List String

/-- Why an operation on files fails. -/
inductive FileFault where
  | notFound
  | notDirectory
  | isDirectory
  | alreadyExists
  | nameTooLong
  | holdsNul
  deriving DecidableEq, Repr

namespace FileFault

def message : FileFault → String
  | notFound => "No such file or directory (os error 2)"
  | notDirectory => "Not a directory (os error 20)"
  | isDirectory => "Is a directory (os error 21)"
  | alreadyExists => "File exists (os error 17)"
  | nameTooLong => "File name too long (os error 36)"
  | holdsNul => "file name contained an unexpected NUL byte"

end FileFault

/-- The nodes, the current directory and the time of new nodes; the root is a
directory even if nothing is bound to it. -/
structure FileSystem where
  nodes : Bindings Location Node
  current : Location
  now : Int

namespace FileSystem

def render (place : Location) : String :=
  "/" ++ "/".intercalate place

def node? (fs : FileSystem) (place : Location) : Option Node :=
  match fs.nodes.find? place with
  | some node => some node
  | none => if place = [] then some (.directory 0) else none

def isDirectoryAt (fs : FileSystem) (place : Location) : Bool :=
  (fs.node? place).any Node.isDirectory

/-- The place that the parts of a path lead to from a place. -/
def follow (fs : FileSystem) (place : Location) : List String → Except FileFault Location
  | [] => .ok place
  | part :: rest =>
    match fs.node? place with
    | none => .error .notFound
    | some (.file ..) => .error .notDirectory
    | some (.directory _) =>
      if Path.isIdle part then follow fs place rest
      else if part = ".." then follow fs place.dropLast rest
      else if Path.nameLimit < Path.size part then .error .nameTooLong
      else follow fs (place ++ [part]) rest

def origin (fs : FileSystem) (path : String) : Location :=
  if Path.isAbsolute path then [] else fs.current

/-- Why a path leads nowhere whatever stands in the file system. -/
def lengthFault? (path : String) : Option FileFault :=
  if path.isEmpty then some .notFound
  else if Path.lengthLimit < Path.size path then some .nameTooLong
  else none

/-- Why a text names no place whatever stands in the file system. -/
def fault? (path : String) : Option FileFault :=
  if path.toList.contains (Char.ofNat 0) then some .holdsNul else lengthFault? path

/-- The place that a path leads to, whether or not something stands there. -/
def reach (fs : FileSystem) (path : String) : Except FileFault Location :=
  match lengthFault? path with
  | some fault => .error fault
  | none => fs.follow (fs.origin path) (Path.parts path)

/-- The place that a text names as a path, whether or not something stands there. -/
def locate (fs : FileSystem) (path : String) : Except FileFault Location :=
  match fault? path with
  | some fault => .error fault
  | none => fs.reach path

def find (fs : FileSystem) (path : String) : Except FileFault Node := do
  let place ← fs.locate path
  match fs.node? place with
  | some node => .ok node
  | none => .error .notFound

def holds (fs : FileSystem) (path : String) : Bool :=
  (fs.find path).isOk

def isDirectory (fs : FileSystem) (path : String) : Bool :=
  match fs.find path with
  | .ok node => node.isDirectory
  | .error _ => false

def read (fs : FileSystem) (path : String) : Except FileFault Bytes := do
  match ← fs.find path with
  | .file bytes _ => .ok bytes
  | .directory _ => .error .isDirectory

/-- The time of the last change of what a path names. -/
def modified? (fs : FileSystem) (path : String) : Option Int :=
  match fs.find path with
  | .ok node => some node.time
  | .error _ => none

def put (fs : FileSystem) (place : Location) (node : Node) : FileSystem :=
  { fs with nodes := fs.nodes.insert place node }

/-- The file system after a change of the entries of a directory, whose time moves
on even if the clock stands still. -/
def touch (fs : FileSystem) (place : Location) : FileSystem :=
  match fs.node? place with
  | some (.directory modified) => fs.put place (.directory (max fs.now (modified + 1)))
  | _ => fs

/-- The file system with a node at a place, which is an entry of a directory. -/
def add (fs : FileSystem) (place : Location) (node : Node) : FileSystem :=
  if (fs.node? place).isSome then fs.put place node
  else (fs.touch place.dropLast).put place node

def addFile (fs : FileSystem) (place : Location) (bytes : Bytes) : FileSystem :=
  fs.add place (.file bytes fs.now)

/-- The file system without the entry of a directory that is a place. -/
def drop (fs : FileSystem) (place : Location) : FileSystem :=
  if (fs.node? place).isSome then
    { fs.touch place.dropLast with nodes := (fs.touch place.dropLast).nodes.erase place }
  else fs

def writeAt (fs : FileSystem) (path : String) (bytes : Bytes) (modified : Int) :
    Except FileFault FileSystem := do
  let place ← fs.locate path
  match fs.node? place with
  | some (.directory _) => .error .isDirectory
  | _ => .ok (fs.add place (.file bytes modified))

def write (fs : FileSystem) (path : String) (bytes : Bytes) : Except FileFault FileSystem :=
  fs.writeAt path bytes fs.now

/-- The parts of a path without the empty ones at the end. -/
def trimParts (parts : List String) : List String :=
  (parts.reverse.dropWhile (· = "")).reverse

/-- Makes a directory at the end of the way that the parts of a path lead from a
place. -/
def makeDir (fs : FileSystem) (place : Location) (parts : List String) :
    Except FileFault FileSystem := do
  let above ← fs.follow place (trimParts parts).dropLast
  match fs.node? above, (trimParts parts).getLast? with
  | none, _ => .error .notFound
  | some (.file ..), _ => .error .notDirectory
  | some (.directory _), none | some (.directory _), some "."
  | some (.directory _), some ".." => .error .alreadyExists
  | some (.directory _), some name =>
    if Path.nameLimit < Path.size name then .error .nameTooLong
    else if (fs.node? (above ++ [name])).isSome then .error .alreadyExists
    else .ok (fs.add (above ++ [name]) (.directory fs.now))

def ensureDir (fs : FileSystem) (place : Location) (parts : List String) :
    Except FileFault Unit × FileSystem :=
  match fs.makeDir place parts, fs.follow place parts with
  | .ok fs, _ => (.ok (), fs)
  | .error fault, .ok found =>
    (if fs.isDirectoryAt found then .ok () else .error fault, fs)
  | .error fault, .error _ => (.error fault, fs)

/-- Makes a directory and, where that is why it cannot be made, first those above
it, whose names come with the last one first.  What was made before a fault
stays. -/
def makeDirsUp (fs : FileSystem) (place : Location) (parts above : List String) :
    Except FileFault Unit × FileSystem :=
  match fs.ensureDir place parts, above with
  | (.error .notFound, _), name :: higher =>
    match fs.makeDirsUp place (name :: higher).reverse higher with
    | (.ok (), fs) => fs.ensureDir place parts
    | failed => failed
  | answer, _ => answer

/-- Makes a directory and those above it.  The directory itself is made by the whole
path, so one whose path ends with a point has to be there already; those above it
are made by their names. -/
def makeDirs (fs : FileSystem) (path : String) : Except FileFault Unit × FileSystem :=
  match fault? path with
  | some .notFound => (.ok (), fs)
  | some fault => (.error fault, fs)
  | none =>
    fs.makeDirsUp (fs.origin path) (Path.parts path) (Path.names path).dropLast.reverse

/-- Moves a file, over one that stands at the new place. -/
def rename (fs : FileSystem) (source target : String) : Except FileFault FileSystem := do
  let origin ← fs.locate source
  let place ← fs.locate target
  match fs.node? origin, fs.node? place with
  | none, _ => .error .notFound
  | some (.file ..), some (.directory _) => .error .isDirectory
  | some node, _ => .ok (((fs.drop origin).touch place.dropLast).put place node)

def removeAt (fs : FileSystem) (place : Location) : Except FileFault FileSystem :=
  match fs.node? place with
  | none => .error .notFound
  | some (.directory _) => .error .isDirectory
  | some (.file ..) => .ok (fs.drop place)

def remove (fs : FileSystem) (path : String) : Except FileFault FileSystem := do
  fs.removeAt (← fs.locate path)

/-- Removes a file from a directory by the name that it has there. -/
def removeIn (fs : FileSystem) (directory name : String) :
    Except FileFault FileSystem := do
  match lengthFault? (Path.join directory name) with
  | some fault => .error fault
  | none => fs.removeAt ((← fs.locate directory) ++ [name])

/-- The name that an entry of the file system has in a directory. -/
def nameIn? (directory : Location) (place : Location) : Option String :=
  if place.dropLast = directory then place.getLast? else none

def list (fs : FileSystem) (path : String) : Except FileFault (List String) := do
  let place ← fs.locate path
  match fs.node? place with
  | none => .error .notFound
  | some (.file ..) => .error .notDirectory
  | some (.directory _) => .ok (fs.nodes.keys.filterMap (nameIn? place))

def changeDirectory (fs : FileSystem) (path : String) : Except FileFault FileSystem := do
  let place ← fs.locate path
  match fs.node? place with
  | none => .error .notFound
  | some (.file ..) => .error .notDirectory
  | some (.directory _) => .ok { fs with current := place }

def currentPath (fs : FileSystem) : String :=
  render fs.current

end FileSystem
end LineShell
