import LineShell.Proofs.Cache.Entries
import LineShell.Proofs.Cache.EntryNames
import Mathlib.Tactic

/-!
# A directory that mirrors entries in memory

Once the directory of a store on disk is there, the file system is described by what it
was then and by the bytes under each key: an entry's file holds the bytes under its key,
and all other files, but for drafts, are as they were.  Every operation of the store
keeps to that description, with the bytes under the keys changed as in memory.
-/

namespace LineShell
namespace Cache
namespace Store

open FileSystem

/-- A directory is there, and no name in it ends as the names of entries do. -/
structure Ready (directory : String) (place : Location) (base : FileSystem) : Prop where
  located : base.locate directory = .ok place
  isDirectory : base.isDirectoryAt place = true
  vacant : ∀ name, Path.extension? name = some ending → base.node? (place ++ [name]) = none

/-- The files that a store has in its directory: the entries, and the drafts of keys
that were saved. -/
def IsOwn (place : Location) (drafted : Key → Prop) (other : Location) : Prop :=
  (∃ key, other = place ++ [entryName key]) ∨
    ∃ key, drafted key ∧ other = place ++ [draftName key]

/-- A file system that differs from another one in the files of a store, whose entries
hold the bytes under the keys. -/
structure Mirrors (base : FileSystem) (place : Location) (drafted : Key → Prop)
    (find : Key → Option Bytes) (fs : FileSystem) : Prop where
  current : fs.current = base.current
  directories : ∀ other, fs.isDirectoryAt other = base.isDirectoryAt other
  entries : ∀ key, fs.fileAt? (place ++ [entryName key]) = find key
  others : ∀ other, ¬ IsOwn place drafted other → fs.fileAt? other = base.fileAt? other

variable {directory : String} {base fs next : FileSystem} {place : Location}
  {drafted : Key → Prop} {find : Key → Option Bytes}

theorem append_name_inj {name other : String} :
    place ++ [name] = place ++ [other] ↔ name = other := by
  simp

theorem entry_ne_draft (key other : Key) :
    ¬ place ++ [entryName key] = place ++ [draftName other] := by
  rw [append_name_inj]
  exact (draftName_ne_entryName other key).symm

theorem Ready.mirrors (hready : Ready directory place base) (drafted : Key → Prop) :
    Mirrors base place drafted (fun _ => none) base where
  current := rfl
  directories _ := rfl
  entries key := by
    rw [fileAt?, hready.vacant _ (extension?_entryName key)]
  others _ _ := rfl

theorem Ready.no_directory (hready : Ready directory place base) (key : Key) :
    base.isDirectoryAt (place ++ [entryName key]) = false := by
  rw [isDirectoryAt, hready.vacant _ (extension?_entryName key)]
  rfl

theorem removeFiles_nil (directory : String) (count : Nat) (fs : FileSystem) :
    removeFiles directory count [] fs = (.ok count, fs) := rfl

theorem removeFiles_cons (directory : String) (count : Nat) (name : String)
    (rest : List String) (fs : FileSystem) :
    removeFiles directory count (name :: rest) fs =
      match fs.removeIn directory name with
      | .ok fs => removeFiles directory (count + 1) rest fs
      | .error fault => (.error (ioError (Path.join directory name) fault), fs) := by
  rfl

namespace Mirrors

/-! ## Reading and listing -/

theorem locate_directory (hmirrors : Mirrors base place drafted find fs)
    (hready : Ready directory place base) : fs.locate directory = .ok place :=
  locate_of_directories hmirrors.current
    (fun other hother => (hmirrors.directories other).trans hother) hready.located

theorem isDirectoryAt_place (hmirrors : Mirrors base place drafted find fs)
    (hready : Ready directory place base) : fs.isDirectoryAt place = true :=
  (hmirrors.directories place).trans hready.isDirectory

theorem locate_join (hmirrors : Mirrors base place drafted find fs)
    (hready : Ready directory place base) (hdirectory : directory ≠ "") {name : String}
    (hname : Path.IsName name) (hfault : fault? (Path.join directory name) = none) :
    fs.locate (Path.join directory name) = .ok (place ++ [name]) :=
  (locate_join_eq_ok_iff hname hdirectory).mpr ⟨hfault, place,
    hmirrors.locate_directory hready, hmirrors.isDirectoryAt_place hready, rfl⟩

theorem read_entryPath (hmirrors : Mirrors base place drafted find fs)
    (hready : Ready directory place base) (hdirectory : directory ≠ "") {key : Key}
    (hfault : fault? (entryPath directory key) = none) :
    fs.read (entryPath directory key) = (find key).elim (.error .notFound) .ok := by
  have hlocate := hmirrors.locate_join hready hdirectory (isName_entryName key) hfault
  have hfile : fs.isDirectoryAt (place ++ [entryName key]) = false :=
    (hmirrors.directories _).trans (hready.no_directory key)
  rw [entryPath_eq, read_of_locate hlocate hfile, hmirrors.entries key]

theorem find_of_read (hmirrors : Mirrors base place drafted find fs)
    (hready : Ready directory place base) (hdirectory : directory ≠ "") {key : Key}
    {bytes : Bytes} (hread : fs.read (entryPath directory key) = .ok bytes) :
    find key = some bytes := by
  obtain ⟨found, hlocate, hfile⟩ := read_eq_ok hread
  obtain ⟨-, there, hthere, -, rfl⟩ :=
    (locate_join_eq_ok_iff (isName_entryName key) hdirectory).mp hlocate
  rw [hmirrors.locate_directory hready] at hthere
  cases hthere
  rw [← hmirrors.entries key, hfile]

theorem load_eq (hmirrors : Mirrors base place drafted find fs)
    (hready : Ready directory place base) (hdirectory : directory ≠ "") {key : Key}
    (hfault : fault? (entryPath directory key) = none) :
    (disk directory).load key fs = .ok (find key) := by
  dsimp only [disk]
  rw [hmirrors.read_entryPath hready hdirectory hfault]
  cases find key with
  | none => rfl
  | some bytes => rfl

/-- The names of the entries in the directory are those of the keys with bytes. -/
theorem mem_entryNames (hmirrors : Mirrors base place drafted find fs)
    (hready : Ready directory place base) :
    (entryNames directory fs).Nodup ∧
      ∀ name, name ∈ entryNames directory fs ↔
        ∃ key, entryName key = name ∧ (find key).isSome := by
  obtain ⟨names, hlist, hnodup, hmem⟩ := list_of_directory
    (hmirrors.locate_directory hready) (hmirrors.isDirectoryAt_place hready)
  unfold entryNames
  rw [hlist]
  refine ⟨hnodup.filter _, ?_⟩
  intro name
  simp only [List.mem_filter, hmem, decide_eq_true_eq]
  constructor
  · rintro ⟨hthere, hending⟩
    have hvacant := hready.vacant name hending
    have hbase : base.isDirectoryAt (place ++ [name]) = false := by
      rw [isDirectoryAt, hvacant]
      rfl
    obtain ⟨bytes, hfile⟩ : ∃ bytes, fs.fileAt? (place ++ [name]) = some bytes := by
      obtain ⟨node, hnode⟩ := Option.isSome_iff_exists.mp hthere
      have hdir := (hmirrors.directories (place ++ [name])).trans hbase
      cases node with
      | directory time => simp [isDirectoryAt, hnode, Node.isDirectory] at hdir
      | file bytes time => exact ⟨bytes, fileAt?_eq_some_iff.mpr ⟨time, hnode⟩⟩
    -- a file that was not there at first is one of the store's own, and no draft
    have hown : IsOwn place drafted (place ++ [name]) := by
      by_contra hforeign
      rw [hmirrors.others _ hforeign, fileAt?, hvacant] at hfile
      cases hfile
    rcases hown with ⟨key, hkey⟩ | ⟨key, -, hkey⟩
    · rw [append_name_inj] at hkey
      refine ⟨key, hkey.symm, ?_⟩
      rw [← hmirrors.entries key, ← hkey, hfile]
      rfl
    · rw [append_name_inj] at hkey
      rw [hkey] at hending
      exact absurd hending (extension?_draftName_ne key)
  · rintro ⟨key, rfl, hfound⟩
    refine ⟨?_, extension?_entryName key⟩
    rw [← hmirrors.entries key] at hfound
    obtain ⟨bytes, hfile⟩ := Option.isSome_iff_exists.mp hfound
    obtain ⟨time, hnode⟩ := fileAt?_eq_some_iff.mp hfile
    rw [hnode]
    rfl

theorem length_entryNames {entries : Entries}
    (hmirrors : Mirrors base place drafted entries.find? fs)
    (hready : Ready directory place base) :
    (entryNames directory fs).length = entries.size := by
  obtain ⟨hnodup, hmem⟩ := hmirrors.mem_entryNames hready
  have hkeys : (entries.keys.map entryName).Nodup :=
    (List.nodup_map_iff entryName_injective).mpr entries.nodup
  have hperm : (entryNames directory fs).Perm (entries.keys.map entryName) := by
    refine (List.perm_ext_iff_of_nodup hnodup hkeys).mpr fun name => ?_
    rw [hmem, List.mem_map]
    simp only [Bindings.isSome_find?_iff, and_comm]
  rw [hperm.length_eq, List.length_map, Bindings.keys, List.length_map]
  rfl

/-! ## Clearing -/

theorem drop (hmirrors : Mirrors base place drafted find fs)
    (hready : Ready directory place base) {name : String}
    (hending : Path.extension? name = some ending) :
    Mirrors base place drafted (fun key => if entryName key = name then none else find key)
      (fs.drop (place ++ [name])) := by
  have hvacant : base.isDirectoryAt (place ++ [name]) = false := by
    rw [isDirectoryAt, hready.vacant name hending]
    rfl
  have hfile : fs.isDirectoryAt (place ++ [name]) = false :=
    (hmirrors.directories _).trans hvacant
  constructor
  · exact (drop_current fs _).trans hmirrors.current
  · intro other
    rw [isDirectoryAt_drop (by simp) hfile, hmirrors.directories]
  · intro key
    rw [fileAt?_drop, hmirrors.entries]
    simp only [append_name_inj]
  · intro other hforeign
    rw [fileAt?_drop, hmirrors.others other hforeign]
    split
    · rename_i hsame
      rw [hsame, fileAt?, hready.vacant name hending]
    · rfl

/-- Removing files that are named as entries takes the bytes from their keys. -/
theorem removeFiles_ok {names : List String} {count n : Nat}
    (hmirrors : Mirrors base place drafted find fs) (hready : Ready directory place base)
    (hnames : ∀ name ∈ names, Path.extension? name = some ending)
    (hremoved : removeFiles directory count names fs = (.ok n, next)) :
    n = count + names.length ∧
      Mirrors base place drafted
        (fun key => if entryName key ∈ names then none else find key) next := by
  induction names generalizing find fs count with
  | nil =>
    cases hremoved
    simpa using hmirrors
  | cons name rest ih =>
    obtain ⟨hending, hrest⟩ := List.forall_mem_cons.mp hnames
    cases hstep : fs.removeIn directory name with
    | error fault =>
      rw [removeFiles_cons, hstep] at hremoved
      cases hremoved
    | ok smaller =>
      rw [removeFiles_cons, hstep] at hremoved
      obtain ⟨-, -, rfl⟩ :=
        (removeIn_eq_ok_iff (hmirrors.locate_directory hready)).mp hstep
      obtain ⟨hcount, hnext⟩ := ih (hmirrors.drop hready hending) hrest hremoved
      constructor
      · rw [hcount, List.length_cons]
        omega
      · convert hnext using 2 with key
        by_cases hname : entryName key = name
        · simp [hname]
        · simp [hname]

theorem removeFiles_succeeds {names : List String} (count : Nat)
    (hmirrors : Mirrors base place drafted find fs) (hready : Ready directory place base)
    (hfault : ∀ key, fault? (entryPath directory key) = none) (hnodup : names.Nodup)
    (hnames : ∀ name ∈ names, ∃ key, entryName key = name ∧ (find key).isSome) :
    ∃ n next, removeFiles directory count names fs = (.ok n, next) := by
  induction names generalizing find fs count with
  | nil => exact ⟨count, fs, rfl⟩
  | cons name rest ih =>
    obtain ⟨⟨key, hkey, hfound⟩, hrest⟩ := List.forall_mem_cons.mp hnames
    obtain ⟨hnew, hothers⟩ := List.nodup_cons.mp hnodup
    subst hkey
    rw [← hmirrors.entries key] at hfound
    have hstep : fs.removeIn directory (entryName key) =
        .ok (fs.drop (place ++ [entryName key])) :=
      (removeIn_eq_ok_iff (hmirrors.locate_directory hready)).mpr
        ⟨lengthFault?_eq_none (hfault key), hfound, rfl⟩
    rw [removeFiles_cons, hstep]
    refine ih (count + 1) (hmirrors.drop hready (extension?_entryName key)) hothers ?_
    intro name hname
    obtain ⟨other, hother, hfound⟩ := hrest name hname
    refine ⟨other, hother, ?_⟩
    rw [if_neg, hfound]
    intro hsame
    rw [hother] at hsame
    exact hnew (hsame ▸ hname)

theorem clear_ok {entries : Entries} {n : Nat}
    (hmirrors : Mirrors base place drafted entries.find? fs)
    (hready : Ready directory place base)
    (hclear : (disk directory).clear fs = (.ok n, next)) :
    n = entries.size ∧ Mirrors base place drafted (fun _ => none) next := by
  obtain ⟨-, hmem⟩ := hmirrors.mem_entryNames hready
  have hendings : ∀ name ∈ entryNames directory fs, Path.extension? name = some ending := by
    intro name hname
    obtain ⟨key, rfl, -⟩ := (hmem name).mp hname
    exact extension?_entryName key
  obtain ⟨hcount, hnext⟩ := hmirrors.removeFiles_ok hready hendings hclear
  constructor
  · rw [hcount, hmirrors.length_entryNames hready, Nat.zero_add]
  · convert hnext using 2 with key
    split
    · rfl
    · rename_i hkept
      rw [hmem] at hkept
      cases hfind : entries.find? key with
      | none => rfl
      | some bytes => exact absurd ⟨key, rfl, by rw [hfind]; rfl⟩ hkept

end Mirrors

/-! ## Saving -/

/-- A draft of a key can be written. -/
structure Writable (directory : String) (place : Location) (base : FileSystem) (key : Key) :
    Prop where
  named : fault? (draftPath directory key) = none
  free : base.isDirectoryAt (place ++ [draftName key]) = false

namespace Mirrors

theorem write_draft (hmirrors : Mirrors base place drafted find fs)
    (hready : Ready directory place base) (hdirectory : directory ≠ "") {key : Key}
    (hwritable : Writable directory place base key) (hkey : drafted key) (bytes : Bytes) :
    ∃ next, fs.write (draftPath directory key) bytes = .ok next ∧
      Mirrors base place drafted find next ∧
      next.fileAt? (place ++ [draftName key]) = some bytes := by
  have hfault := hwritable.named
  rw [draftPath_eq hdirectory] at hfault ⊢
  have hlocate := hmirrors.locate_join hready hdirectory (isName_draftName key) hfault
  have hfree : fs.isDirectoryAt (place ++ [draftName key]) = false :=
    (hmirrors.directories _).trans hwritable.free
  refine ⟨_, write_of_locate hlocate hfree bytes, ?_, ?_⟩
  · constructor
    · exact (add_current ..).trans hmirrors.current
    · intro other
      rw [isDirectoryAt_add_file hfree, hmirrors.directories]
    · intro other
      rw [fileAt?_add_file, if_neg (entry_ne_draft other key), hmirrors.entries]
    · intro other hforeign
      rw [fileAt?_add_file, hmirrors.others other hforeign, if_neg]
      rintro rfl
      exact hforeign (Or.inr ⟨key, hkey, rfl⟩)
  · rw [fileAt?_add_file, if_pos rfl]

theorem writable_of_write (hmirrors : Mirrors base place drafted find fs)
    (hready : Ready directory place base) (hdirectory : directory ≠ "") {key : Key}
    {bytes : Bytes} (hwrite : fs.write (draftPath directory key) bytes = .ok next) :
    Writable directory place base key := by
  obtain ⟨found, hlocate, hfree, -⟩ := write_eq_ok hwrite
  rw [draftPath_eq hdirectory] at hlocate
  obtain ⟨hfault, there, hthere, -, rfl⟩ :=
    (locate_join_eq_ok_iff (isName_draftName key) hdirectory).mp hlocate
  rw [hmirrors.locate_directory hready] at hthere
  cases hthere
  rw [← draftPath_eq hdirectory] at hfault
  exact ⟨hfault, (hmirrors.directories _).symm.trans hfree⟩

theorem rename_draft (hmirrors : Mirrors base place drafted find fs)
    (hready : Ready directory place base) (hdirectory : directory ≠ "") {key : Key}
    (hwritable : Writable directory place base key) (hkey : drafted key) {bytes : Bytes}
    (hdraft : fs.fileAt? (place ++ [draftName key]) = some bytes) :
    ∃ next, fs.rename (draftPath directory key) (entryPath directory key) = .ok next ∧
      Mirrors base place drafted (fun other => if other = key then some bytes else find other)
        next := by
  have horigin : fs.locate (draftPath directory key) = .ok (place ++ [draftName key]) := by
    have hfault := hwritable.named
    rw [draftPath_eq hdirectory] at hfault ⊢
    exact hmirrors.locate_join hready hdirectory (isName_draftName key) hfault
  have htarget : fs.locate (entryPath directory key) = .ok (place ++ [entryName key]) :=
    hmirrors.locate_join hready hdirectory (isName_entryName key)
      (fault?_entryPath_of_draftPath hdirectory hwritable.named)
  have hfree : fs.isDirectoryAt (place ++ [entryName key]) = false :=
    (hmirrors.directories _).trans (hready.no_directory key)
  have hgone : fs.isDirectoryAt (place ++ [draftName key]) = false :=
    (hmirrors.directories _).trans hwritable.free
  obtain ⟨time, hrename⟩ := rename_of_locate horigin htarget hdraft hfree
  refine ⟨_, hrename, ?_⟩
  constructor
  · exact (touch_current ..).trans ((drop_current ..).trans hmirrors.current)
  · intro other
    have hdropped := isDirectoryAt_drop (by simp) hgone (place ++ [entryName key])
    rw [isDirectoryAt_put_file (by rw [isDirectoryAt_touch, hdropped, hfree]),
      isDirectoryAt_touch, isDirectoryAt_drop (by simp) hgone, hmirrors.directories]
  · intro other
    rw [fileAt?_rename, if_neg (entry_ne_draft other key), hmirrors.entries]
    simp only [append_name_inj, entryName_injective.eq_iff]
  · intro other hforeign
    have hentry : ¬ other = place ++ [entryName key] := by
      rintro rfl
      exact hforeign (Or.inl ⟨key, rfl⟩)
    have hnodraft : ¬ other = place ++ [draftName key] := by
      rintro rfl
      exact hforeign (Or.inr ⟨key, hkey, rfl⟩)
    rw [fileAt?_rename, if_neg hentry, if_neg hnodraft, hmirrors.others other hforeign]

end Mirrors
end Store
end Cache
end LineShell
