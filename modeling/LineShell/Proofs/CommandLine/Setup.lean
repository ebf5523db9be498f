import LineShell.CommandLine.Execute
import LineShell.Proofs.Cache.Disk
import LineShell.Proofs.Intake.Transparency

/-!
# What a session on a host relies on

The cache of a session keeps its entries in the files of its host, where the working
directory is kept too.  A host keeps its files if it gives back the ones that it is
given and a change of the directory makes none.  On such a host the cache may be
trusted once every file that is named as an entry holds a sound one, whatever the
settings and the directory of the cache.
-/

namespace LineShell

variable {ω : Type}

/-- A host gives back the files that it is given, and a change of its working
directory makes none. -/
structure Host.KeepsFiles (host : Host ω) : Prop where
  files_withFiles : ∀ world fs, host.files (host.withFiles world fs) = fs
  change_noNewFile : ∀ path world,
    (host.files world).NoNewFile (host.files (host.directory.change path world).2)

theorem FileSystem.changeDirectory_noNewFile
    {fs next : FileSystem} {path : String} (hchange : fs.changeDirectory path = .ok next) :
    fs.NoNewFile next := by
  obtain ⟨place, _, hstep⟩ := exists_of_bind_eq_ok hchange
  split at hstep
  · cases hstep
  · cases hstep
  · cases hstep
    intro other bytes hfile
    exact hfile

theorem Host.ofFiles_keepsFiles : Host.ofFiles.KeepsFiles := by
  constructor
  · intro world fs
    rfl
  · intro path fs
    dsimp only [Host.ofFiles, WorkingDirectory.ofFiles, id]
    split
    · rename_i next hchange
      exact FileSystem.changeDirectory_noNewFile hchange
    · exact FileSystem.NoNewFile.refl fs

namespace CommandLine

open Cache History

/-- Every file of the host that is named as an entry of the cache holds a sound one. -/
def SoundHost (host : Host ω) (world : ω) : Prop :=
  Store.SoundFiles (Sound Digest.ofBytes Language.fingerprint Language.compile)
    (host.files world)

theorem setup_trusted
    {host : Host ω} (hhost : host.KeepsFiles) (settings : Settings) (cacheDir : String)
    (journal : Option (Journal Database ShellError)) :
    Intake.Trusted (setup host settings cacheDir journal).tools Language.compile
      (SoundHost host) :=
  (Store.disk_keeps cacheDir _).within hhost.files_withFiles

theorem SoundHost.change
    {host : Host ω} (hhost : host.KeepsFiles) {world : ω} (hsound : SoundHost host world)
    (path : String) : SoundHost host (host.directory.change path world).2 :=
  hsound.noNewFile (hhost.change_noNewFile path world)

theorem soundHost_empty (current : Location) (now : Int) :
    SoundHost Host.ofFiles ⟨.empty, current, now⟩ := by
  intro place name bytes hname hending hfile
  unfold FileSystem.fileAt? FileSystem.node? at hfile
  simp only [Host.ofFiles, id, Bindings.find?_empty] at hfile
  split at hfile
  · rename_i hnode
    split at hnode
    · cases hnode
    · cases hnode
  · cases hfile

end CommandLine
end LineShell
