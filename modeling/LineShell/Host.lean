import LineShell.WorkingDirectory

/-!
# Hosts

Commands run on a world that has files and keeps a working directory.  It may be a
file system, or the part of a larger one that was read beforehand.  Such a part
does not know every directory, so it notes the ones that it was asked for; a run
that asks for none would go the same way on the whole.
-/

namespace LineShell

/-- How commands reach the files and the working directory of a world of type
`ω`. -/
structure Host (ω : Type) where
  files : ω → FileSystem
  withFiles : ω → FileSystem → ω
  directory : WorkingDirectory ω

namespace Host

def ofFiles : Host FileSystem :=
  ⟨id, fun _ fs => fs, .ofFiles⟩

end Host

/-- The part of a larger file system that was read: its files, the places to which
paths of directories lead, where `none` is a path that leads to no directory, and
the further paths that were asked for. -/
structure View where
  files : FileSystem
  directories : Bindings String (Option Location)
  questions : List String

namespace View

def ofFiles (fs : FileSystem) : View :=
  ⟨fs, .empty, []⟩

def answer (view : View) (path : String) (place : Option Location) : View :=
  { view with directories := view.directories.insert path place }

/-- A change to a directory, which is a question if the path is unknown. -/
def enter (path : String) (view : View) : Except String Unit × View :=
  match view.directories.find? path with
  | some (some place) => (.ok (), { view with files := { view.files with current := place } })
  | some none => (.error FileFault.notFound.message, view)
  | none => (.error "unknown directory", { view with questions := path :: view.questions })

/-- The working directory of a part; an unknown path is taken for a directory, so
that the change to it becomes a question. -/
def directory : WorkingDirectory View where
  current view := .ok view.files.currentPath
  change := enter
  isDirectory path view :=
    match view.directories.find? path with
    | some place => place.isSome
    | none => true

def host : Host View :=
  ⟨View.files, fun view fs => { view with files := fs }, directory⟩

end View
end LineShell
