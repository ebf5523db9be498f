import LineShell.CommandLine.Ending
import LineShell.CommandLine.Execute

/-!
# The program

The outer layer.  It reads the files that a command may touch, runs the command on
them, looks at the directories that the run asked for and runs it again until
nothing is left to ask, writes back what has changed, and prints.
-/

namespace LineShell
namespace Program

open CommandLine History

def nanoseconds (time : IO.FS.SystemTime) : Int :=
  time.sec * 1000000000 + time.nsec.toNat

/-- What stands at an absolute path; what cannot be read counts as nothing. -/
def node? (path : String) : IO (Option Node) := do
  let path := (← IO.currentDir) / path
  try
    let time := nanoseconds (← path.metadata).modified
    if ← path.isDir then return some (.directory time)
    let bytes ← IO.FS.readBinFile path
    return some (.file bytes.toList time)
  catch _ => return none

/-- Reads what stands on the way that parts of a path lead from a place. -/
def readParts (fs : FileSystem) (place : Location) : List String → IO FileSystem
  | [] => return fs
  | part :: rest => do
    if Path.isIdle part then readParts fs place rest
    else if part = ".." then readParts fs place.dropLast rest
    else
      let place := place ++ [part]
      match ← node? (FileSystem.render place) with
      | some node => readParts (fs.put place node) place rest
      | none => return fs

def readPath (fs : FileSystem) (path : String) : IO FileSystem :=
  readParts fs (fs.origin path) (Path.parts path)

/-- Reads the file at the place of a database and what stands beside it. -/
def readStored (fs : FileSystem) (place : Location) : IO FileSystem := do
  let fs ← readParts fs [] place
  [.journal, .log, .index, .lock].foldlM
    (fun fs companion => readParts fs [] (DatabasePlace.beside place companion)) fs

def readDatabase (fs : FileSystem) (text : String) : IO FileSystem := do
  let fs ← readPath fs text
  match Address.ofText text with
  | .error _ => return fs
  | .ok address =>
    let fs ← readPath fs address.path
    let fs ← readPath fs (address.pattern.getD "")
    match DatabasePlace.ofPath? fs address.path with
    | some place => readStored fs place
    | none => return fs

/-- Reads the entries of the cache. -/
def readCache (fs : FileSystem) (directory : String) : IO FileSystem := do
  let fs ← readPath fs directory
  try
    let path := (← IO.currentDir) / Path.join fs.currentPath directory
    let entries ← path.readDir
    entries.foldlM (fun fs entry => readPath fs (Path.join directory entry.fileName)) fs
  catch _ => return fs

/-- The environment of the process; what is no text is passed over. -/
def environment : IO Environment := do
  let bytes := (← IO.FS.readBinFile "/proc/self/environ").toList
  let entry? (bytes : Bytes) : Option (String × String) := do
    let text ← Text.Utf8.decode? bytes
    match text.toList.span (· ≠ '=') with
    | (name, _ :: value) => some (String.ofList name, String.ofList value)
    | _ => none
  return Bindings.ofList ((bytes.splitOnP (· == 0)).filterMap entry?)

def now : IO Int := do
  let path := (← IO.currentDir) / "/proc/self/environ"
  return nanoseconds (← path.metadata).modified

/-- The files that a command may touch before it changes its directory. -/
def snapshot (env : Environment) (arguments : Arguments) : IO FileSystem := do
  let here := (← IO.currentDir).toString
  let fs : FileSystem := ⟨.empty, [], ← now⟩
  let fs ← readPath fs here
  let fs := { fs with current := (Path.parts here).filter (· ≠ "") }
  let fs ← readDatabase fs arguments.database
  let fs ← match arguments.command with
    | .run file => readPath fs file
    | _ => pure fs
  readCache fs (arguments.cacheDirectory env)

def look (cacheDir : String) (view : View) (path : String) : IO View := do
  let real := (← IO.currentDir) / path
  if ← real.isDir then
    let place := (Path.parts (← IO.FS.realPath real).toString).filter (· ≠ "")
    let fs ← readParts view.files [] place
    let fs ← readCache { fs with current := place } cacheDir
    return { view with files := { fs with current := view.files.current } }.answer path place
  else return view.answer path none

/-- Runs a command until it asks for no further directory. -/
partial def settle (request : Request View) : IO (Finished View) := do
  let finished := request.execute View.host
  match finished.world.questions with
  | [] => return finished
  | questions =>
    let view ← questions.foldlM (look request.cacheDir) request.world
    settle { request with world := view }

def writeNode (place : Location) : Node → IO Unit
  | .directory _ => IO.FS.createDirAll (FileSystem.render place)
  | .file bytes _ => do
    IO.FS.createDirAll (FileSystem.render place.dropLast)
    IO.FS.writeBinFile (FileSystem.render place) ⟨bytes.toArray⟩

def writeBack (before after : FileSystem) : IO Unit := do
  for (place, node) in after.nodes.entries do
    if before.nodes.find? place ≠ some node then writeNode place node
  for place in before.nodes.keys do
    if after.nodes.find? place = none then IO.FS.removeFile (FileSystem.render place)

def input : Command → IO Bytes
  | .repl => return (← IO.FS.readBinFile "/dev/stdin").toList
  | _ => return []

def run (env : Environment) (arguments : Arguments) : IO Ending := do
  let fs ← snapshot env arguments
  let finished ← settle ⟨arguments, env, ← input arguments.command, .ofFiles fs⟩
  let written : Except IO.Error Unit ← (writeBack fs finished.world.files).toBaseIO
  (← IO.getStdout).write ⟨finished.stdout.toArray⟩
  (← IO.getStderr).write ⟨finished.stderr.toArray⟩
  let result := do
    written.mapError fun e => .io (.generic e.toString)
    finished.result
  return .ofResult (.ofName arguments.format) result

end Program
end LineShell

def main (args : List String) : IO UInt32 := do
  let env ← LineShell.Program.environment
  let ending ← match LineShell.CommandLine.Arguments.read env args with
    | .ok arguments => LineShell.Program.run env arguments
    | .error usage => pure (.ofUsage usage)
  (← IO.getStdout).putStr ending.stdout
  (← IO.getStderr).putStr ending.stderr
  return ending.code.toUInt32
