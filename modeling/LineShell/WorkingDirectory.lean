import LineShell.FileSystem

/-!
# Working directories

A world may keep a working directory: the current one of a file system, or a path
that is remembered beside it and changes nothing there.
-/

namespace LineShell

/-- The working directory that a world of type `ω` keeps. -/
structure WorkingDirectory (ω : Type) where
  /-- The path of the directory, or why it cannot be told. -/
  current : ω → Except String String
  /-- Changes to the directory of a path, or tells why not. -/
  change : String → ω → Except String Unit × ω
  /-- Whether a path names a directory. -/
  isDirectory : String → ω → Bool

namespace WorkingDirectory

def within {ω σ : Type} (get : ω → σ) (set : ω → σ → ω)
    (directory : WorkingDirectory σ) : WorkingDirectory ω where
  current world := directory.current (get world)
  change path world :=
    let (result, part) := directory.change path (get world)
    (result, set world part)
  isDirectory path world := directory.isDirectory path (get world)

def ofFiles : WorkingDirectory FileSystem where
  current fs := .ok fs.currentPath
  change path fs :=
    match fs.changeDirectory path with
    | .ok fs => (.ok (), fs)
    | .error fault => (.error fault.message, fs)
  isDirectory path fs := fs.isDirectory path

def remembered : WorkingDirectory (String × FileSystem) where
  current world := .ok world.1
  change path world := (.ok (), (path, world.2))
  isDirectory path world := world.2.isDirectory path

end WorkingDirectory
end LineShell
