import LineShell.FileSystem
import LineShell.Proofs.Faults
import Mathlib.Tactic

/-!
# What operations do to files

Operations on files are looked at through two questions: which bytes the file at a
place holds, and whether a directory stands there.  Making directories adds no file;
writing and moving one changes the file at one place; and no operation on files makes
a way that led somewhere lead elsewhere.
-/

namespace LineShell

namespace FileSystem

/-- The bytes of the file at a place. -/
def fileAt? (fs : FileSystem) (place : Location) : Option Bytes :=
  match fs.node? place with
  | some (.file bytes _) => some bytes
  | _ => none

/-- Every file of the second file system is one of the first. -/
def NoNewFile (fs next : FileSystem) : Prop :=
  ∀ place bytes, next.fileAt? place = some bytes → fs.fileAt? place = some bytes

theorem NoNewFile.refl (fs : FileSystem) : NoNewFile fs fs := by
  intro place bytes hfile
  exact hfile

/-! ## Single places -/

theorem node?_put (fs : FileSystem) (place other : Location) (node : Node) :
    (fs.put place node).node? other = if other = place then some node else fs.node? other := by
  unfold node? put
  rw [Bindings.find?_insert]
  by_cases hsame : other = place
  · simp [hsame]
  · simp [hsame]

theorem fileAt?_put_directory
    (fs : FileSystem) {place : Location} {time : Int} (hplace : fs.fileAt? place = none)
    (other : Location) : (fs.put place (.directory time)).fileAt? other = fs.fileAt? other := by
  unfold fileAt?
  rw [node?_put]
  by_cases hsame : other = place
  · rw [if_pos hsame, hsame]
    exact hplace.symm
  · rw [if_neg hsame]

theorem fileAt?_put_file
    (fs : FileSystem) (place other : Location) (bytes : Bytes) (time : Int) :
    (fs.put place (.file bytes time)).fileAt? other =
      if other = place then some bytes else fs.fileAt? other := by
  unfold fileAt?
  rw [node?_put]
  by_cases hsame : other = place
  · rw [if_pos hsame, if_pos hsame]
  · rw [if_neg hsame, if_neg hsame]

@[simp] theorem fileAt?_touch (fs : FileSystem) (place other : Location) :
    (fs.touch place).fileAt? other = fs.fileAt? other := by
  unfold touch
  split
  · rename_i modified hnode
    apply fileAt?_put_directory
    simp [fileAt?, hnode]
  · rfl

theorem isDirectoryAt_put (fs : FileSystem) (place other : Location) (node : Node) :
    (fs.put place node).isDirectoryAt other =
      if other = place then node.isDirectory else fs.isDirectoryAt other := by
  unfold isDirectoryAt
  rw [node?_put]
  by_cases hsame : other = place
  · rw [if_pos hsame, if_pos hsame]
    rfl
  · rw [if_neg hsame, if_neg hsame]

theorem isDirectoryAt_put_file
    {fs : FileSystem} {place : Location} (hplace : fs.isDirectoryAt place = false)
    (bytes : Bytes) (time : Int) (other : Location) :
    (fs.put place (.file bytes time)).isDirectoryAt other = fs.isDirectoryAt other := by
  rw [isDirectoryAt_put]
  by_cases hsame : other = place
  · rw [if_pos hsame, hsame, hplace]
    rfl
  · rw [if_neg hsame]

@[simp] theorem isDirectoryAt_touch (fs : FileSystem) (place other : Location) :
    (fs.touch place).isDirectoryAt other = fs.isDirectoryAt other := by
  unfold touch
  split
  · rename_i modified hnode
    rw [isDirectoryAt_put]
    by_cases hsame : other = place
    · simp [hsame, isDirectoryAt, hnode, Node.isDirectory]
    · rw [if_neg hsame]
  · rfl

theorem node?_erase (fs : FileSystem) (place other : Location) :
    ({ fs with nodes := fs.nodes.erase place } : FileSystem).node? other =
      if other = place then if place = [] then some (.directory 0) else none
      else fs.node? other := by
  unfold node?
  rw [Bindings.find?_erase]
  by_cases hsame : other = place
  · simp [hsame]
  · simp [hsame]

theorem fileAt?_drop (fs : FileSystem) (place other : Location) :
    (fs.drop place).fileAt? other = if other = place then none else fs.fileAt? other := by
  unfold drop
  split
  · rw [← fileAt?_touch fs place.dropLast other]
    unfold fileAt?
    rw [node?_erase]
    by_cases hsame : other = place
    · rw [if_pos hsame, if_pos hsame]
      by_cases hroot : place = []
      · rw [if_pos hroot]
      · rw [if_neg hroot]
    · rw [if_neg hsame, if_neg hsame]
  · rename_i hnone
    have hplace : fs.node? place = none := by simpa using hnone
    by_cases hsame : other = place
    · rw [if_pos hsame, hsame]
      simp [fileAt?, hplace]
    · rw [if_neg hsame]

theorem isDirectoryAt_drop
    {fs : FileSystem} {place : Location} (hroot : place ≠ [])
    (hplace : fs.isDirectoryAt place = false) (other : Location) :
    (fs.drop place).isDirectoryAt other = fs.isDirectoryAt other := by
  unfold drop
  split
  · rw [← isDirectoryAt_touch fs place.dropLast other]
    unfold isDirectoryAt
    rw [node?_erase]
    by_cases hsame : other = place
    · have hthere := isDirectoryAt_touch fs place.dropLast place
      rw [hplace, isDirectoryAt] at hthere
      rw [if_pos hsame, if_neg hroot, hsame, hthere]
      rfl
    · rw [if_neg hsame]
  · rfl

theorem touch_current (fs : FileSystem) (place : Location) :
    (fs.touch place).current = fs.current := by
  unfold touch
  split
  · rfl
  · rfl

theorem add_current (fs : FileSystem) (place : Location) (node : Node) :
    (fs.add place node).current = fs.current := by
  unfold add
  split
  · rfl
  · exact touch_current fs place.dropLast

theorem drop_current (fs : FileSystem) (place : Location) :
    (fs.drop place).current = fs.current := by
  unfold drop
  split
  · exact touch_current fs place.dropLast
  · rfl

/-! ## Making directories -/

/-- The second file system has the files of the first, and perhaps more directories. -/
structure AddsDirectories (fs next : FileSystem) : Prop where
  current : next.current = fs.current
  files : ∀ place, next.fileAt? place = fs.fileAt? place
  directories : ∀ place, fs.isDirectoryAt place = true → next.isDirectoryAt place = true

theorem AddsDirectories.refl (fs : FileSystem) : AddsDirectories fs fs where
  current := rfl
  files _ := rfl
  directories _ hplace := hplace

theorem AddsDirectories.trans
    {first second third : FileSystem} (hfirst : AddsDirectories first second)
    (hsecond : AddsDirectories second third) : AddsDirectories first third where
  current := hsecond.current.trans hfirst.current
  files place := (hsecond.files place).trans (hfirst.files place)
  directories place hplace := hsecond.directories place (hfirst.directories place hplace)

theorem AddsDirectories.noNewFile
    {fs next : FileSystem} (hadds : AddsDirectories fs next) : NoNewFile fs next := by
  intro place bytes hfile
  rw [← hadds.files place]
  exact hfile

theorem add_directory_addsDirectories
    {fs : FileSystem} {place : Location} {time : Int} (hfree : fs.node? place = none) :
    AddsDirectories fs (fs.add place (.directory time)) := by
  have hadd : fs.add place (.directory time) =
      (fs.touch place.dropLast).put place (.directory time) := by
    rw [add, hfree]
    rfl
  have hplace : (fs.touch place.dropLast).fileAt? place = none := by
    rw [fileAt?_touch]
    simp [fileAt?, hfree]
  constructor
  · exact add_current fs place (.directory time)
  · intro other
    rw [hadd, fileAt?_put_directory _ hplace, fileAt?_touch]
  · intro other hother
    rw [hadd, isDirectoryAt_put, isDirectoryAt_touch, hother]
    exact ite_self true

/-- All that making one directory does. -/
theorem makeDir_eq_ok
    {fs next : FileSystem} {place : Location} {parts : List String}
    (hmade : fs.makeDir place parts = .ok next) :
    ∃ above name, fs.follow place (trimParts parts).dropLast = .ok above ∧
      (trimParts parts).getLast? = some name ∧ name ≠ "." ∧ name ≠ ".." ∧
      Path.size name ≤ Path.nameLimit ∧ fs.isDirectoryAt above = true ∧
      fs.node? (above ++ [name]) = none ∧
      next = fs.add (above ++ [name]) (.directory fs.now) := by
  obtain ⟨above, hfollow, hstep⟩ := exists_of_bind_eq_ok hmade
  split at hstep
  case h_6 time name hpoint hup hnode hlast =>
    split at hstep
    · cases hstep
    · rename_i hsize
      split at hstep
      · cases hstep
      · rename_i hfree
        refine ⟨above, name, hfollow, hlast, hpoint, hup, Nat.not_lt.mp hsize, ?_, ?_, ?_⟩
        · simp [isDirectoryAt, hnode, Node.isDirectory]
        · simpa using hfree
        · exact (Except.ok.inj hstep).symm
  all_goals cases hstep

theorem makeDir_addsDirectories
    {fs next : FileSystem} {place : Location} {parts : List String}
    (hmade : fs.makeDir place parts = .ok next) : AddsDirectories fs next := by
  obtain ⟨above, name, _, _, _, _, _, _, hfree, hnext⟩ := makeDir_eq_ok hmade
  rw [hnext]
  exact add_directory_addsDirectories hfree

theorem ensureDir_addsDirectories (fs : FileSystem) (place : Location) (parts : List String) :
    AddsDirectories fs (fs.ensureDir place parts).2 := by
  unfold ensureDir
  cases hmade : fs.makeDir place parts with
  | ok next => exact makeDir_addsDirectories hmade
  | error fault =>
    cases hfound : fs.follow place parts with
    | ok found => exact AddsDirectories.refl fs
    | error _ => exact AddsDirectories.refl fs

theorem makeDirsUp_addsDirectories
    (fs : FileSystem) (place : Location) (parts above : List String) :
    AddsDirectories fs (fs.makeDirsUp place parts above).2 := by
  induction above generalizing fs parts with
  | nil =>
    unfold makeDirsUp
    split
    · rename_i hnone
      cases hnone
    · exact ensureDir_addsDirectories fs place parts
  | cons name higher ih =>
    have habove := ih fs (name :: higher).reverse
    unfold makeDirsUp
    split
    · rename_i hlist
      cases hlist
      cases hup : fs.makeDirsUp place (name :: higher).reverse higher with
      | mk result next =>
        rw [hup] at habove
        cases result with
        | ok _ => exact habove.trans (ensureDir_addsDirectories next place parts)
        | error fault => exact habove
    · exact ensureDir_addsDirectories fs place parts

theorem makeDirs_addsDirectories (fs : FileSystem) (path : String) :
    AddsDirectories fs (fs.makeDirs path).2 := by
  unfold makeDirs
  split
  · exact AddsDirectories.refl fs
  · exact AddsDirectories.refl fs
  · exact makeDirsUp_addsDirectories fs _ _ _

/-! ## Ways through directories -/

/-- Where one part of a path leads from a directory. -/
def enter? (place : Location) (part : String) : Option Location :=
  if Path.isIdle part then some place
  else if part = ".." then some place.dropLast
  else if Path.nameLimit < Path.size part then none
  else some (place ++ [part])

theorem isDirectoryAt_eq_true_iff {fs : FileSystem} {place : Location} :
    fs.isDirectoryAt place = true ↔ ∃ time, fs.node? place = some (.directory time) := by
  unfold isDirectoryAt
  cases fs.node? place with
  | none => simp
  | some node => cases node <;> simp [Node.isDirectory]

/-- A way leads somewhere if its first part leads out of a directory to where the rest
of the way leads there. -/
theorem follow_cons_eq_ok_iff
    {fs : FileSystem} {place found : Location} {part : String} {rest : List String} :
    fs.follow place (part :: rest) = .ok found ↔
      fs.isDirectoryAt place = true ∧
        ∃ next, enter? place part = some next ∧ fs.follow next rest = .ok found := by
  rw [isDirectoryAt_eq_true_iff, follow]
  unfold enter?
  cases hnode : fs.node? place with
  | none => simp
  | some node =>
    cases node with
    | file bytes time => simp
    | directory time =>
      dsimp only
      split_ifs
      · simp
      · simp
      · simp
      · simp

/-- A way that leads somewhere leads there as long as its directories stand. -/
theorem follow_of_directories
    {fs next : FileSystem}
    (hdirs : ∀ place, fs.isDirectoryAt place = true → next.isDirectoryAt place = true)
    {place found : Location} {parts : List String}
    (hfollow : fs.follow place parts = .ok found) : next.follow place parts = .ok found := by
  induction parts generalizing place with
  | nil => exact hfollow
  | cons part rest ih =>
    obtain ⟨hdir, onward, henter, hrest⟩ := follow_cons_eq_ok_iff.mp hfollow
    exact follow_cons_eq_ok_iff.mpr ⟨hdirs place hdir, onward, henter, ih hrest⟩

/-- A way that ends with a name leads to a place of that name. -/
theorem follow_getLast?
    {fs : FileSystem} {place found : Location} {parts : List String} {name : String}
    (hfollow : fs.follow place parts = .ok found) (hlast : parts.getLast? = some name)
    (hidle : Path.isIdle name = false) (hup : name ≠ "..") :
    found.getLast? = some name := by
  induction parts generalizing place with
  | nil => cases hlast
  | cons part rest ih =>
    obtain ⟨_, onward, henter, hrest⟩ := follow_cons_eq_ok_iff.mp hfollow
    cases rest with
    | nil =>
      have hpart : part = name := by simpa using hlast
      have hfound : onward = found := Except.ok.inj hrest
      rw [hpart, enter?, hidle, if_neg (by simp), if_neg hup] at henter
      split at henter
      · cases henter
      · rw [← hfound, ← Option.some.inj henter]
        simp
    | cons second others => exact ih hrest (by simpa using hlast)

theorem lengthFault?_eq_none {path : String} (hfault : fault? path = none) :
    lengthFault? path = none := by
  unfold fault? at hfault
  split at hfault
  · cases hfault
  · exact hfault

theorem locate_eq_follow {fs : FileSystem} {path : String} (hfault : fault? path = none) :
    fs.locate path = fs.follow (fs.origin path) (Path.parts path) := by
  rw [locate, hfault]
  dsimp only
  rw [reach, lengthFault?_eq_none hfault]

theorem locate_eq_ok_iff
    {fs : FileSystem} {path : String} {found : Location} :
    fs.locate path = .ok found ↔
      fault? path = none ∧ fs.follow (fs.origin path) (Path.parts path) = .ok found := by
  cases hfault : fault? path with
  | some fault => simp [locate, hfault]
  | none => simp [locate_eq_follow hfault]

theorem locate_of_directories
    {fs next : FileSystem} (hcurrent : next.current = fs.current)
    (hdirs : ∀ place, fs.isDirectoryAt place = true → next.isDirectoryAt place = true)
    {path : String} {found : Location} (hlocate : fs.locate path = .ok found) :
    next.locate path = .ok found := by
  obtain ⟨hfault, hfollow⟩ := locate_eq_ok_iff.mp hlocate
  have horigin : next.origin path = fs.origin path := by
    unfold origin
    rw [hcurrent]
  rw [← horigin] at hfollow
  exact locate_eq_ok_iff.mpr ⟨hfault, follow_of_directories hdirs hfollow⟩

theorem read_eq_ok
    {fs : FileSystem} {path : String} {bytes : Bytes} (hread : fs.read path = .ok bytes) :
    ∃ place, fs.locate path = .ok place ∧ fs.fileAt? place = some bytes := by
  obtain ⟨node, hfind, hbytes⟩ := exists_of_bind_eq_ok hread
  obtain ⟨place, hlocate, hnode⟩ := exists_of_bind_eq_ok hfind
  refine ⟨place, hlocate, ?_⟩
  split at hnode
  · rename_i found hthere
    cases hnode
    unfold fileAt?
    rw [hthere]
    cases node with
    | directory time => cases hbytes
    | file found time =>
      cases hbytes
      rfl
  · cases hnode

/-! ## Writing and moving a file -/

/-- Every file of the second file system is one of the first or holds the given
bytes. -/
def OnlyNew (bytes : Bytes) (fs next : FileSystem) : Prop :=
  ∀ place found, next.fileAt? place = some found →
    found = bytes ∨ fs.fileAt? place = some found

theorem fileAt?_add_file
    (fs : FileSystem) (place other : Location) (bytes : Bytes) (time : Int) :
    (fs.add place (.file bytes time)).fileAt? other =
      if other = place then some bytes else fs.fileAt? other := by
  unfold add
  split
  · exact fileAt?_put_file fs place other bytes time
  · rw [fileAt?_put_file, fileAt?_touch]

theorem isDirectoryAt_add_file
    {fs : FileSystem} {place : Location} (hplace : fs.isDirectoryAt place = false)
    (bytes : Bytes) (time : Int) (other : Location) :
    (fs.add place (.file bytes time)).isDirectoryAt other = fs.isDirectoryAt other := by
  unfold add
  split
  · exact isDirectoryAt_put_file hplace bytes time other
  · rw [isDirectoryAt_put_file ((isDirectoryAt_touch ..).trans hplace), isDirectoryAt_touch]

theorem write_of_locate
    {fs : FileSystem} {path : String} {place : Location} (hlocate : fs.locate path = .ok place)
    (hplace : fs.isDirectoryAt place = false) (bytes : Bytes) :
    fs.write path bytes = .ok (fs.add place (.file bytes fs.now)) := by
  rw [write, writeAt, hlocate]
  cases hnode : fs.node? place with
  | none => simp [bind, Except.bind, hnode]
  | some node =>
    cases node with
    | directory time => simp [isDirectoryAt, hnode, Node.isDirectory] at hplace
    | file old time => simp [bind, Except.bind, hnode]

theorem write_eq_ok
    {fs next : FileSystem} {path : String} {bytes : Bytes}
    (hwrite : fs.write path bytes = .ok next) :
    ∃ place, fs.locate path = .ok place ∧ fs.isDirectoryAt place = false ∧
      next = fs.add place (.file bytes fs.now) := by
  obtain ⟨place, hlocate, hstep⟩ := exists_of_bind_eq_ok hwrite
  split at hstep
  · cases hstep
  · rename_i hnode
    refine ⟨place, hlocate, ?_, (Except.ok.inj hstep).symm⟩
    rw [Bool.eq_false_iff, ne_eq, isDirectoryAt_eq_true_iff]
    rintro ⟨time, hthere⟩
    exact hnode time hthere

/-- A file that was written is found again by its path, and no other file is new. -/
theorem write_onlyNew
    {fs next : FileSystem} {path : String} {bytes : Bytes}
    (hwrite : fs.write path bytes = .ok next) :
    OnlyNew bytes fs next ∧
      ∀ place, next.locate path = .ok place → next.fileAt? place = some bytes := by
  obtain ⟨place, hlocate, hplace, hnext⟩ := write_eq_ok hwrite
  subst hnext
  constructor
  · intro other found hfile
    rw [fileAt?_add_file] at hfile
    split at hfile
    · exact Or.inl (Option.some.inj hfile).symm
    · exact Or.inr hfile
  · intro other hother
    have hagain := locate_of_directories (add_current fs place (.file bytes fs.now))
      (fun other hother => by rw [isDirectoryAt_add_file hplace, hother]) hlocate
    rw [hagain] at hother
    cases hother
    rw [fileAt?_add_file, if_pos rfl]

theorem fileAt?_eq_some_iff {fs : FileSystem} {place : Location} {bytes : Bytes} :
    fs.fileAt? place = some bytes ↔ ∃ time, fs.node? place = some (.file bytes time) := by
  unfold fileAt?
  cases fs.node? place with
  | none => simp
  | some node => cases node <;> simp

theorem rename_of_locate
    {fs : FileSystem} {source target : String} {origin place : Location} {bytes : Bytes}
    (horigin : fs.locate source = .ok origin) (htarget : fs.locate target = .ok place)
    (hfile : fs.fileAt? origin = some bytes) (hplace : fs.isDirectoryAt place = false) :
    ∃ time, fs.rename source target =
      .ok (((fs.drop origin).touch place.dropLast).put place (.file bytes time)) := by
  obtain ⟨time, hnode⟩ := fileAt?_eq_some_iff.mp hfile
  refine ⟨time, ?_⟩
  rw [rename, horigin, htarget]
  cases hthere : fs.node? place with
  | none => simp [bind, Except.bind, hnode, hthere]
  | some there =>
    cases there with
    | directory modified => simp [isDirectoryAt, hthere, Node.isDirectory] at hplace
    | file old modified => simp [bind, Except.bind, hnode, hthere]

theorem rename_eq_ok
    {fs next : FileSystem} {source target : String} {origin : Location} {bytes : Bytes}
    (hrename : fs.rename source target = .ok next) (horigin : fs.locate source = .ok origin)
    (hfile : fs.fileAt? origin = some bytes) :
    ∃ place time, fs.locate target = .ok place ∧ fs.isDirectoryAt place = false ∧
      next = ((fs.drop origin).touch place.dropLast).put place (.file bytes time) := by
  obtain ⟨found, hfound, hrest⟩ := exists_of_bind_eq_ok hrename
  rw [horigin] at hfound
  cases hfound
  obtain ⟨place, htarget, hstep⟩ := exists_of_bind_eq_ok hrest
  obtain ⟨time, hnode⟩ := fileAt?_eq_some_iff.mp hfile
  rw [hnode] at hstep
  refine ⟨place, time, htarget, ?_⟩
  cases hplace : fs.node? place with
  | none =>
    rw [hplace] at hstep
    exact ⟨by simp [isDirectoryAt, hplace], (Except.ok.inj hstep).symm⟩
  | some there =>
    rw [hplace] at hstep
    cases there with
    | directory modified => cases hstep
    | file old modified =>
      exact ⟨by simp [isDirectoryAt, hplace, Node.isDirectory], (Except.ok.inj hstep).symm⟩

/-- Moving a file takes it from one place to another. -/
theorem fileAt?_rename
    {fs : FileSystem} {origin place other : Location} {bytes : Bytes} {time : Int} :
    (((fs.drop origin).touch place.dropLast).put place (.file bytes time)).fileAt? other =
      if other = place then some bytes
      else if other = origin then none else fs.fileAt? other := by
  rw [fileAt?_put_file, fileAt?_touch, fileAt?_drop]

/-- Moving a file puts its bytes at one place and makes no other file. -/
theorem rename_onlyNew
    {fs next : FileSystem} {source target : String} {bytes : Bytes}
    (hrename : fs.rename source target = .ok next)
    (hsource : ∀ place, fs.locate source = .ok place → fs.fileAt? place = some bytes) :
    OnlyNew bytes fs next := by
  obtain ⟨origin, horigin, _⟩ := exists_of_bind_eq_ok hrename
  obtain ⟨place, time, _, _, hnext⟩ := rename_eq_ok hrename horigin (hsource origin horigin)
  subst hnext
  intro other found hfound
  rw [fileAt?_rename] at hfound
  split at hfound
  · exact Or.inl (Option.some.inj hfound).symm
  · split at hfound
    · cases hfound
    · exact Or.inr hfound

end FileSystem
end LineShell
