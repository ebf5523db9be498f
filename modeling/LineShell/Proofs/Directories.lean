import LineShell.Proofs.FileSystem
import LineShell.Proofs.Path
import Mathlib.Data.List.TakeWhile
import Mathlib.Tactic

/-!
# What stands in a directory

The path of a directory with a name behind it leads to the entry of that name exactly if
the directory is there.  Making a directory that is there changes nothing, and one that
has been made is there.  A listing holds each name in the directory once.
-/

namespace LineShell
namespace FileSystem

/-! ## Ways in two stretches -/

theorem follow_nil_eq_ok_iff {fs : FileSystem} {place found : Location} :
    fs.follow place [] = .ok found ↔ found = place := by
  rw [follow, Except.ok.injEq, eq_comm]

theorem follow_append_eq_ok_iff
    {fs : FileSystem} {place found : Location} {front back : List String} :
    fs.follow place (front ++ back) = .ok found ↔
      ∃ between, fs.follow place front = .ok between ∧ fs.follow between back = .ok found := by
  induction front generalizing place with
  | nil => simp [follow_nil_eq_ok_iff]
  | cons part rest ih =>
    rw [List.cons_append, follow_cons_eq_ok_iff]
    constructor
    · rintro ⟨hdir, next, henter, hrest⟩
      obtain ⟨between, hbefore, hbehind⟩ := ih.mp hrest
      exact ⟨between, follow_cons_eq_ok_iff.mpr ⟨hdir, next, henter, hbefore⟩, hbehind⟩
    · rintro ⟨between, hbefore, hbehind⟩
      obtain ⟨hdir, next, henter, hrest⟩ := follow_cons_eq_ok_iff.mp hbefore
      exact ⟨hdir, next, henter, ih.mpr ⟨between, hrest, hbehind⟩⟩

/-- Slashes at the end of a way ask for a directory there. -/
theorem follow_empties_eq_ok_iff
    {fs : FileSystem} {place found : Location} {empties : List String}
    (hempties : ∀ part ∈ empties, part = "") :
    fs.follow place empties = .ok found ↔
      (empties = [] ∨ fs.isDirectoryAt place = true) ∧ found = place := by
  induction empties with
  | nil => simp [follow_nil_eq_ok_iff]
  | cons part rest ih =>
    obtain ⟨hpart, hrest⟩ := List.forall_mem_cons.mp hempties
    have henter : enter? place part = some place := by
      rw [hpart]
      rfl
    rw [follow_cons_eq_ok_iff, henter]
    simp only [Option.some.injEq, exists_eq_left', ih hrest, reduceCtorEq, false_or]
    constructor
    · rintro ⟨hdir, -, hfound⟩
      exact ⟨hdir, hfound⟩
    · rintro ⟨hdir, hfound⟩
      exact ⟨hdir, Or.inr hdir, hfound⟩

theorem enter?_name {name : String} (hname : Path.IsName name) (place : Location) :
    enter? place name = some (place ++ [name]) := by
  rw [enter?, hname.busy, if_neg (by simp), if_neg hname.notUp,
    if_neg (Nat.not_lt.mpr hname.short)]

theorem follow_name_eq_ok_iff
    {fs : FileSystem} {place found : Location} {name : String} (hname : Path.IsName name) :
    fs.follow place [name] = .ok found ↔
      fs.isDirectoryAt place = true ∧ found = place ++ [name] := by
  rw [follow_cons_eq_ok_iff, enter?_name hname]
  simp [follow_nil_eq_ok_iff]

/-! ## The path of an entry -/

theorem fault?_eq_none_iff {path : String} :
    fault? path = none ↔
      Path.announcer ∉ path.toList ∧ path ≠ "" ∧ Path.size path ≤ Path.lengthLimit := by
  unfold fault? lengthFault? Path.announcer
  by_cases hnul : Char.ofNat 0 ∈ path.toList
  · simp [hnul]
  · by_cases hempty : path = ""
    · simp [hempty]
    · simp [hnul, hempty]

theorem fault?_ne_notFound {path : String} (hpath : path ≠ "") :
    fault? path ≠ some .notFound := by
  unfold fault? lengthFault?
  simp only [String.isEmpty_iff, if_neg hpath]
  split_ifs <;> simp

theorem fault?_eq_none_of_append {path more : String} (hpath : path ≠ "")
    (hwhole : fault? (path ++ more) = none) : fault? path = none := by
  obtain ⟨hnul, -, hsize⟩ := fault?_eq_none_iff.mp hwhole
  refine fault?_eq_none_iff.mpr ⟨?_, hpath, ?_⟩
  · intro hmem
    exact hnul (by rw [String.toList_append]; exact List.mem_append_left _ hmem)
  · rw [Path.size_append hnul] at hsize
    omega

theorem follow_parts_join
    {fs : FileSystem} {directory name : String} {origin found : Location}
    (hname : Path.IsName name) (hdirectory : directory ≠ "") :
    fs.follow origin (Path.parts (Path.join directory name)) = .ok found ↔
      ∃ place, fs.follow origin (Path.parts directory) = .ok place ∧
        fs.isDirectoryAt place = true ∧ found = place ++ [name] := by
  obtain ⟨front, hjoined, hparts⟩ := hname.parts_join hdirectory
  rw [hjoined, follow_append_eq_ok_iff]
  simp only [follow_name_eq_ok_iff hname]
  cases hparts with
  | inl hwhole => rw [hwhole]
  | inr hslash =>
    have hempty : ∀ part ∈ [""], part = "" := by simp
    simp only [hslash, follow_append_eq_ok_iff, follow_empties_eq_ok_iff hempty]
    constructor
    · rintro ⟨place, hfront, hplace, hfound⟩
      exact ⟨place, ⟨place, hfront, Or.inr hplace, rfl⟩, hplace, hfound⟩
    · rintro ⟨place, ⟨between, hfront, -, rfl⟩, hplace, hfound⟩
      exact ⟨place, hfront, hplace, hfound⟩

/-- The path of an entry leads to it if the directory is there, and nowhere otherwise. -/
theorem locate_join_eq_ok_iff
    {fs : FileSystem} {directory name : String} {found : Location}
    (hname : Path.IsName name) (hdirectory : directory ≠ "") :
    fs.locate (Path.join directory name) = .ok found ↔
      fault? (Path.join directory name) = none ∧
        ∃ place, fs.locate directory = .ok place ∧ fs.isDirectoryAt place = true ∧
          found = place ++ [name] := by
  obtain ⟨more, hmore⟩ := hname.exists_join_eq hdirectory
  have horigin : fs.origin (Path.join directory name) = fs.origin directory := by
    rw [origin, origin, hmore, Path.isAbsolute_append hdirectory]
  rw [locate_eq_ok_iff, horigin, follow_parts_join hname hdirectory]
  simp only [locate_eq_ok_iff]
  constructor
  · rintro ⟨hfault, place, hfollow, hrest⟩
    rw [hmore] at hfault ⊢
    exact ⟨hfault, place, ⟨fault?_eq_none_of_append hdirectory hfault, hfollow⟩, hrest⟩
  · rintro ⟨hfault, place, ⟨-, hfollow⟩, hrest⟩
    exact ⟨hfault, place, hfollow, hrest⟩

theorem read_of_locate_error {fs : FileSystem} {path : String} {fault : FileFault}
    (hlocate : fs.locate path = .error fault) : fs.read path = .error fault := by
  rw [read, find, hlocate]
  rfl

/-- A path that names a place fails to be read only for what stands there. -/
theorem fault?_of_read_notFound {fs : FileSystem} {path : String} (hpath : path ≠ "")
    (hread : fs.read path = .error .notFound) : fault? path = none := by
  cases hfault : fault? path with
  | none => rfl
  | some fault =>
    have hlocate : fs.locate path = .error fault := by
      rw [locate, hfault]
    rw [read_of_locate_error hlocate] at hread
    cases hread
    exact absurd hfault (fault?_ne_notFound hpath)

theorem isDirectory_of_locate {fs : FileSystem} {path : String} {place : Location}
    (hlocate : fs.locate path = .ok place) : fs.isDirectory path = fs.isDirectoryAt place := by
  rw [isDirectory, find, hlocate, isDirectoryAt]
  cases hnode : fs.node? place with
  | none => simp [bind, Except.bind, hnode]
  | some node => simp [bind, Except.bind, hnode]

theorem read_of_locate {fs : FileSystem} {path : String} {place : Location}
    (hlocate : fs.locate path = .ok place) (hplace : fs.isDirectoryAt place = false) :
    fs.read path = (fs.fileAt? place).elim (.error .notFound) .ok := by
  have hfind : fs.find path = (fs.node? place).elim (.error .notFound) .ok := by
    rw [find, hlocate]
    cases hnode : fs.node? place <;> simp [bind, Except.bind, hnode]
  rw [read, hfind, fileAt?]
  cases hnode : fs.node? place with
  | none => rfl
  | some node =>
    cases node with
    | directory time => simp [isDirectoryAt, hnode, Node.isDirectory] at hplace
    | file bytes time => rfl

/-! ## Directories that are made -/

/-- Where a way leads once directories have been added, it led before, or a directory on
it was missing. -/
theorem AddsDirectories.follow_before
    {fs next : FileSystem} (hadds : AddsDirectories fs next) {place found : Location}
    {parts : List String} (hnext : next.follow place parts = .ok found) :
    fs.follow place parts = .ok found ∨ fs.follow place parts = .error .notFound := by
  induction parts generalizing place with
  | nil => exact Or.inl hnext
  | cons part rest ih =>
    obtain ⟨hdir, onward, henter, hrest⟩ := follow_cons_eq_ok_iff.mp hnext
    cases hnode : fs.node? place with
    | none =>
      right
      rw [follow, hnode]
    | some node =>
      cases node with
      | file bytes time =>
        have hfile : next.fileAt? place = some bytes := by
          rw [hadds.files, fileAt?, hnode]
        obtain ⟨_, hthere⟩ := fileAt?_eq_some_iff.mp hfile
        simp [isDirectoryAt, hthere, Node.isDirectory] at hdir
      | directory time =>
        have hstep : fs.follow place (part :: rest) = fs.follow onward rest := by
          rw [follow, hnode]
          unfold enter? at henter
          dsimp only
          split_ifs at henter ⊢ <;> cases henter <;> rfl
        rw [hstep]
        exact ih hrest

theorem AddsDirectories.locate_before
    {fs next : FileSystem} (hadds : AddsDirectories fs next) {path : String}
    {found : Location} (hnext : next.locate path = .ok found) :
    fs.locate path = .ok found ∨ fs.locate path = .error .notFound := by
  obtain ⟨hfault, hfollow⟩ := locate_eq_ok_iff.mp hnext
  have horigin : next.origin path = fs.origin path := by
    rw [origin, origin, hadds.current]
  rw [locate_eq_follow hfault, ← horigin]
  exact hadds.follow_before hfollow

theorem trimParts_append (parts : List String) :
    ∃ empties, parts = trimParts parts ++ empties ∧ ∀ part ∈ empties, part = "" := by
  refine ⟨(parts.reverse.takeWhile (· = "")).reverse, ?_, ?_⟩
  · rw [trimParts, ← List.reverse_append, List.takeWhile_append_dropWhile,
      List.reverse_reverse]
  · intro part hpart
    simpa using List.mem_takeWhile_imp (List.mem_reverse.mp hpart)

theorem ne_empty_of_getLast?_trimParts {parts : List String} {name : String}
    (hlast : (trimParts parts).getLast? = some name) : name ≠ "" := by
  rw [trimParts, List.getLast?_reverse] at hlast
  have hkept := List.head?_dropWhile_not (fun part : String => decide (part = "")) parts.reverse
  rw [hlast] at hkept
  simpa using hkept

/-- A way ends at its last name, with nothing but slashes behind. -/
theorem follow_trimParts
    {fs : FileSystem} {place above found : Location} {parts : List String} {name : String}
    (hlast : (trimParts parts).getLast? = some name) (hpoint : name ≠ ".")
    (hup : name ≠ "..") (hsize : Path.size name ≤ Path.nameLimit)
    (habove : fs.follow place (trimParts parts).dropLast = .ok above)
    (hdir : fs.isDirectoryAt above = true) :
    fs.follow place parts = .ok found ↔
      ((trimParts parts = parts ∨ fs.isDirectoryAt (above ++ [name]) = true) ∧
        found = above ++ [name]) := by
  obtain ⟨empties, hparts, hempties⟩ := trimParts_append parts
  have hfront : trimParts parts = (trimParts parts).dropLast ++ [name] :=
    (List.dropLast_append_getLast? name hlast).symm
  have hidle : Path.isIdle name = false := by
    simp [Path.isIdle, hpoint, ne_empty_of_getLast?_trimParts hlast]
  have henter : enter? above name = some (above ++ [name]) := by
    rw [enter?, hidle, if_neg (by simp), if_neg hup, if_neg (Nat.not_lt.mpr hsize)]
  have htrimmed : fs.follow place (trimParts parts) = .ok (above ++ [name]) := by
    rw [hfront]
    refine follow_append_eq_ok_iff.mpr ⟨above, habove, ?_⟩
    exact follow_cons_eq_ok_iff.mpr ⟨hdir, above ++ [name], henter, rfl⟩
  have hsame : trimParts parts = parts ↔ empties = [] := by
    constructor
    · intro htrim
      rw [htrim] at hparts
      simpa using hparts
    · intro hnil
      rw [hnil, List.append_nil] at hparts
      exact hparts.symm
  rw [hsame]
  conv_lhs => rw [hparts]
  rw [follow_append_eq_ok_iff, htrimmed]
  simp [follow_empties_eq_ok_iff hempties]

theorem ensureDir_of_directory
    {fs : FileSystem} {place found : Location} {parts : List String}
    (hfollow : fs.follow place parts = .ok found) (hfound : fs.isDirectoryAt found = true) :
    fs.ensureDir place parts = (.ok (), fs) := by
  unfold ensureDir
  cases hmade : fs.makeDir place parts with
  | error fault =>
    rw [hfollow]
    dsimp only
    rw [if_pos hfound]
  | ok next =>
    obtain ⟨above, name, habove, hlast, hpoint, hup, hsize, hdir, hfree, -⟩ :=
      makeDir_eq_ok hmade
    obtain ⟨-, hplace⟩ :=
      (follow_trimParts hlast hpoint hup hsize habove hdir).mp hfollow
    rw [hplace, isDirectoryAt, hfree] at hfound
    cases hfound

/-- A directory that is there is not made again. -/
theorem makeDirs_of_directory
    {fs : FileSystem} {path : String} {place : Location}
    (hlocate : fs.locate path = .ok place) (hplace : fs.isDirectoryAt place = true) :
    fs.makeDirs path = (.ok (), fs) := by
  obtain ⟨hfault, hfollow⟩ := locate_eq_ok_iff.mp hlocate
  rw [makeDirs, hfault]
  dsimp only
  rw [makeDirsUp.eq_def, ensureDir_of_directory hfollow hplace]

theorem ensureDir_made
    {fs : FileSystem} {place : Location} {parts : List String}
    (hmade : (fs.ensureDir place parts).1 = .ok ()) :
    ∃ found, (fs.ensureDir place parts).2.follow place parts = .ok found ∧
      (fs.ensureDir place parts).2.isDirectoryAt found = true := by
  unfold ensureDir at hmade ⊢
  cases hmake : fs.makeDir place parts with
  | ok next =>
    obtain ⟨above, name, habove, hlast, hpoint, hup, hsize, hdir, hfree, hnext⟩ :=
      makeDir_eq_ok hmake
    have hadds := makeDir_addsDirectories hmake
    have hthere : next.isDirectoryAt (above ++ [name]) = true := by
      rw [hnext, add, hfree]
      exact (isDirectoryAt_put ..).trans (if_pos rfl)
    refine ⟨above ++ [name], ?_, hthere⟩
    exact (follow_trimParts hlast hpoint hup hsize
      (follow_of_directories hadds.directories habove) (hadds.directories above hdir)).mpr
      ⟨Or.inr hthere, rfl⟩
  | error fault =>
    rw [hmake] at hmade
    cases hfollow : fs.follow place parts with
    | error _ =>
      rw [hfollow] at hmade
      cases hmade
    | ok found =>
      rw [hfollow] at hmade
      refine ⟨found, hfollow, ?_⟩
      by_contra hnot
      dsimp only at hmade
      rw [if_neg hnot] at hmade
      cases hmade

/-- Making directories ends with making the lowest of them. -/
theorem exists_makeDirsUp_eq
    {fs : FileSystem} {place : Location} {parts above : List String}
    (hmade : (fs.makeDirsUp place parts above).1 = .ok ()) :
    ∃ before : FileSystem, fs.makeDirsUp place parts above = before.ensureDir place parts := by
  unfold makeDirsUp at hmade ⊢
  split at hmade
  · rename_i name higher _
    cases hup : fs.makeDirsUp place (name :: higher).reverse higher with
    | mk result next =>
      rw [hup] at hmade
      cases result with
      | ok _ => exact ⟨next, rfl⟩
      | error fault => cases hmade
  · exact ⟨fs, rfl⟩

theorem makeDirs_made
    {fs : FileSystem} {path : String} (hpath : path ≠ "")
    (hmade : (fs.makeDirs path).1 = .ok ()) :
    ∃ place, (fs.makeDirs path).2.locate path = .ok place ∧
      (fs.makeDirs path).2.isDirectoryAt place = true := by
  have horigin : (fs.makeDirs path).2.origin path = fs.origin path := by
    rw [origin, origin, (fs.makeDirs_addsDirectories path).current]
  simp only [locate_eq_ok_iff, horigin]
  unfold makeDirs at hmade ⊢
  cases hfault : fault? path with
  | some fault =>
    rw [hfault] at hmade
    cases fault with
    | notFound => exact absurd hfault (fault?_ne_notFound hpath)
    | _ => cases hmade
  | none =>
    rw [hfault] at hmade
    obtain ⟨before, hends⟩ := exists_makeDirsUp_eq hmade
    dsimp only at hmade ⊢
    rw [hends] at hmade ⊢
    obtain ⟨found, hfollow, hfound⟩ := ensureDir_made hmade
    exact ⟨found, ⟨rfl, hfollow⟩, hfound⟩

/-! ## Listing a directory -/

theorem nameIn?_eq_some_iff {directory place : Location} {name : String} :
    nameIn? directory place = some name ↔ place = directory ++ [name] := by
  unfold nameIn?
  constructor
  · intro hname
    split at hname
    · rename_i hdirectory
      rw [← hdirectory]
      exact (List.dropLast_append_getLast? name hname).symm
    · cases hname
  · rintro rfl
    simp

/-- A directory is listed with each name in it once. -/
theorem list_of_directory
    {fs : FileSystem} {path : String} {place : Location}
    (hlocate : fs.locate path = .ok place) (hplace : fs.isDirectoryAt place = true) :
    ∃ names, fs.list path = .ok names ∧ names.Nodup ∧
      ∀ name, name ∈ names ↔ (fs.node? (place ++ [name])).isSome := by
  obtain ⟨time, hnode⟩ := isDirectoryAt_eq_true_iff.mp hplace
  refine ⟨fs.nodes.keys.filterMap (nameIn? place), ?_, ?_, ?_⟩
  · simp only [list, hlocate, hnode, bind, Except.bind]
  · refine List.Nodup.filterMap ?_ fs.nodes.nodup
    intro first second name hfirst hsecond
    rw [Option.mem_def, nameIn?_eq_some_iff] at hfirst hsecond
    rw [hfirst, hsecond]
  · intro name
    have hkeys : (fs.node? (place ++ [name])).isSome ↔ place ++ [name] ∈ fs.nodes.keys := by
      rw [← Bindings.isSome_find?_iff, node?]
      cases fs.nodes.find? (place ++ [name]) with
      | some node => rfl
      | none => simp
    rw [hkeys, List.mem_filterMap]
    simp only [nameIn?_eq_some_iff, exists_eq_right]

theorem locate_of_list_eq_ok {fs : FileSystem} {path : String} {names : List String}
    (hlist : fs.list path = .ok names) :
    ∃ place, fs.locate path = .ok place ∧ fs.isDirectoryAt place = true := by
  obtain ⟨place, hlocate, hstep⟩ := exists_of_bind_eq_ok hlist
  refine ⟨place, hlocate, ?_⟩
  split at hstep
  · cases hstep
  · cases hstep
  · rename_i time hnode
    exact isDirectoryAt_eq_true_iff.mpr ⟨time, hnode⟩

/-! ## Removing a file from a directory -/

theorem removeAt_eq_ok_iff {fs next : FileSystem} {place : Location} :
    fs.removeAt place = .ok next ↔ (fs.fileAt? place).isSome ∧ next = fs.drop place := by
  unfold removeAt fileAt?
  cases fs.node? place with
  | none => simp
  | some node => cases node <;> simp [eq_comm]

theorem removeIn_eq_ok_iff
    {fs next : FileSystem} {directory name : String} {place : Location}
    (hlocate : fs.locate directory = .ok place) :
    fs.removeIn directory name = .ok next ↔
      lengthFault? (Path.join directory name) = none ∧
        (fs.fileAt? (place ++ [name])).isSome ∧ next = fs.drop (place ++ [name]) := by
  rw [← removeAt_eq_ok_iff]
  unfold removeIn
  cases lengthFault? (Path.join directory name) with
  | some fault => simp
  | none =>
    rw [hlocate]
    simp [bind, Except.bind]

end FileSystem
end LineShell
