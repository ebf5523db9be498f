import LineShell.Cache.Artifact
import LineShell.FileSystem

/-!
# Stores of cache entries

A store keeps bytes under keys in a part of the world.  One kind keeps them in a
map, the other as files of a directory, one for each key; both answer alike.  A
file is written under another name first and then moved to its own, so an
interrupted write leaves the old entry or none.
-/

namespace LineShell
namespace Cache

/-- What can be done with the entries that a world of type `ω` keeps. -/
structure Store (ω : Type) where
  /-- The bytes under a key. -/
  load : Key → ω → Except CacheError (Option Bytes)
  /-- Keeps bytes under a key; the same bytes again change nothing. -/
  save : Key → Bytes → ω → Except CacheError Unit × ω
  /-- Removes every entry and counts them. -/
  clear : ω → Except CacheError Nat × ω
  /-- The number of entries. -/
  size : ω → Nat

/-- The entries of a store in memory. -/
abbrev Entries := Bindings Key Bytes

namespace Store

def within {ω σ : Type} (get : ω → σ) (set : ω → σ → ω) (store : Store σ) : Store ω where
  load key world := store.load key (get world)
  save key bytes world :=
    let (result, part) := store.save key bytes (get world)
    (result, set world part)
  clear world :=
    let (result, part) := store.clear (get world)
    (result, set world part)
  size world := store.size (get world)

/-- Entries kept in a map. -/
def memory : Store Entries where
  load key entries := .ok (entries.find? key)
  save key bytes entries :=
    if entries.find? key = some bytes then (.ok (), entries)
    else (.ok (), entries.insert key bytes)
  clear entries := (.ok entries.size, Bindings.empty)
  size entries := entries.size

def ending : String := "unit"

def entryPath (directory : String) (key : Key) : String :=
  Path.join directory (key.render ++ "." ++ ending)

def draftPath (directory : String) (key : Key) : String :=
  entryPath directory key ++ ".tmp"

/-- The names of the entries in a directory; a directory that cannot be read
holds none. -/
def entryNames (directory : String) (fs : FileSystem) : List String :=
  match fs.list directory with
  | .ok names => names.filter fun name => Path.extension? name = some ending
  | .error _ => []

def ioError (path : String) (fault : FileFault) : CacheError :=
  .io path fault.message

/-- A step on the file system that may fail and then changes nothing. -/
def attempt (path : String) (fs : FileSystem) (result : Except FileFault FileSystem) :
    Except CacheError Unit × FileSystem :=
  match result with
  | .ok fs => (.ok (), fs)
  | .error fault => (.error (ioError path fault), fs)

/-- A step on the file system that may fail and leaves what it did until then. -/
def reported (path : String) (answer : Except FileFault Unit × FileSystem) :
    Except CacheError Unit × FileSystem :=
  (answer.1.mapError (ioError path), answer.2)

def andThen (result : Except CacheError Unit × FileSystem)
    (next : FileSystem → Except CacheError Unit × FileSystem) :
    Except CacheError Unit × FileSystem :=
  match result with
  | (.ok (), fs) => next fs
  | (.error e, fs) => (.error e, fs)

/-- Writes an entry under its other name and moves it to its own. -/
def saveFile (directory : String) (key : Key) (bytes : Bytes) (fs : FileSystem) :
    Except CacheError Unit × FileSystem :=
  let path := entryPath directory key
  let draft := draftPath directory key
  match fs.read path with
  | .ok existing => if existing = bytes then (.ok (), fs) else write path draft
  | .error _ => write path draft
where
  write (path draft : String) : Except CacheError Unit × FileSystem :=
    andThen (reported directory (fs.makeDirs directory)) fun fs =>
      andThen (attempt draft fs (fs.write draft bytes)) fun fs =>
        attempt path fs (fs.rename draft path)

/-- Removes files one after the other and counts them. -/
def removeFiles (directory : String) : Nat → List String → FileSystem →
    Except CacheError Nat × FileSystem
  | count, [], fs => (.ok count, fs)
  | count, name :: rest, fs =>
    match fs.removeIn directory name with
    | .ok fs => removeFiles directory (count + 1) rest fs
    | .error fault => (.error (ioError (Path.join directory name) fault), fs)

def disk (directory : String) : Store FileSystem where
  load key fs :=
    match fs.read (entryPath directory key) with
    | .ok bytes => .ok (some bytes)
    | .error .notFound => .ok none
    | .error fault => .error (ioError (entryPath directory key) fault)
  save := saveFile directory
  clear fs := removeFiles directory 0 (entryNames directory fs) fs
  size fs := (entryNames directory fs).length

end Store
end Cache
end LineShell
