import LineShell.Proofs.Cache.Mirror

/-!
# Two stores that answer alike

A store on disk begins with a directory in which nothing is named as an entry, or with
none, which the first saving makes.  From then on the directory mirrors the entries of a
store in memory that is called in the same way, so both answer alike as long as no
operation on files fails.  Savings that stop half-way leave drafts, which are never taken
for entries.
-/

namespace LineShell
namespace Cache
namespace Store

open FileSystem

/-! ## Calls -/

inductive Call where
  | load (key : Key)
  | save (key : Key) (bytes : Bytes)
  /-- A saving that stops when these bytes have been written. -/
  | interrupt (key : Key) (written : Bytes)
  | clear
  | size

inductive Answer where
  | loaded (result : Except CacheError (Option Bytes))
  | saved (result : Except CacheError Unit)
  | cleared (result : Except CacheError Nat)
  | counted (n : Nat)

def Answer.succeeds : Answer → Bool
  | loaded result => result.isOk
  | saved result => result.isOk
  | cleared result => result.isOk
  | counted _ => true

def Call.Drafts (key : Key) : Call → Prop
  | save other _ | interrupt other _ => other = key
  | load _ | clear | size => False

/-- A store with what it does when a saving stops half-way. -/
structure Interruptible (ω : Type) extends Store ω where
  interrupt : Key → Bytes → ω → Except CacheError Unit × ω

/-- Saving, up to where the draft is moved. -/
def writeDraft (directory : String) (key : Key) (bytes : Bytes) (fs : FileSystem) :
    Except CacheError Unit × FileSystem :=
  andThen (reported directory (fs.makeDirs directory)) fun fs =>
    attempt (draftPath directory key) fs (fs.write (draftPath directory key) bytes)

def interruptibleDisk (directory : String) : Interruptible FileSystem :=
  { disk directory with interrupt := writeDraft directory }

def interruptibleMemory : Interruptible Entries :=
  { memory with interrupt := fun _ _ entries => (.ok (), entries) }

section

variable {ω : Type} (store : Interruptible ω)

def Call.perform (world : ω) : Call → Answer × ω
  | load key => (.loaded (store.load key world), world)
  | save key bytes =>
    (.saved (store.save key bytes world).1, (store.save key bytes world).2)
  | interrupt key written =>
    (.saved (store.interrupt key written world).1, (store.interrupt key written world).2)
  | clear => (.cleared (store.clear world).1, (store.clear world).2)
  | size => (.counted (store.size world), world)

def answers : ω → List Call → List Answer
  | _, [] => []
  | world, call :: rest =>
    (call.perform store world).1 :: answers (call.perform store world).2 rest

def after (world : ω) (calls : List Call) : ω :=
  calls.foldl (fun world call => (call.perform store world).2) world

end

theorem Call.perform_disk (directory : String) (fs : FileSystem) (call : Call) :
    call.perform (interruptibleDisk directory) fs =
      match call with
      | load key => (.loaded ((disk directory).load key fs), fs)
      | save key bytes =>
        (.saved (saveFile directory key bytes fs).1, (saveFile directory key bytes fs).2)
      | interrupt key written =>
        (.saved (writeDraft directory key written fs).1, (writeDraft directory key written fs).2)
      | clear => (.cleared ((disk directory).clear fs).1, ((disk directory).clear fs).2)
      | size => (.counted ((disk directory).size fs), fs) := by
  cases call <;> dsimp only [perform, interruptibleDisk, disk]

/-! ## Steps that save -/

theorem attempt_ok (path : String) (fs next : FileSystem) :
    attempt path fs (.ok next) = (.ok (), next) := rfl

theorem andThen_ok (fs : FileSystem)
    (next : FileSystem → Except CacheError Unit × FileSystem) :
    andThen (.ok (), fs) next = next fs := rfl

theorem reported_ok (path : String) (fs : FileSystem) :
    reported path (.ok (), fs) = (.ok (), fs) := rfl

theorem andThen_eq_ok {result : Except CacheError Unit × FileSystem}
    {next : FileSystem → Except CacheError Unit × FileSystem}
    (hresult : (andThen result next).1 = .ok ()) :
    result.1 = .ok () ∧ andThen result next = next result.2 := by
  obtain ⟨answer, fs⟩ := result
  cases answer with
  | ok _ => exact ⟨rfl, rfl⟩
  | error e => cases hresult

theorem reported_eq_ok {path : String} {answer : Except FileFault Unit × FileSystem}
    (hreported : (reported path answer).1 = .ok ()) : answer = (.ok (), answer.2) := by
  obtain ⟨result, fs⟩ := answer
  cases result with
  | ok _ => rfl
  | error fault => cases hreported

theorem andThen_assoc (result : Except CacheError Unit × FileSystem)
    (next last : FileSystem → Except CacheError Unit × FileSystem) :
    andThen (andThen result next) last = andThen result fun fs => andThen (next fs) last := by
  obtain ⟨answer, fs⟩ := result
  cases answer with
  | ok _ => rfl
  | error e => rfl

/-- Saving writes a draft and moves it. -/
theorem saveFile_write_eq (directory : String) (key : Key) (bytes : Bytes)
    (fs : FileSystem) :
    saveFile.write directory bytes fs (entryPath directory key) (draftPath directory key) =
      andThen (writeDraft directory key bytes fs) fun fs =>
        attempt (entryPath directory key) fs
          (fs.rename (draftPath directory key) (entryPath directory key)) := by
  rw [saveFile.write, writeDraft, andThen_assoc]

theorem saveFile_eq (directory : String) (key : Key) (bytes : Bytes) (fs : FileSystem) :
    saveFile directory key bytes fs =
      if fs.read (entryPath directory key) = .ok bytes then (.ok (), fs)
      else saveFile.write directory bytes fs (entryPath directory key)
        (draftPath directory key) := by
  unfold saveFile
  dsimp only
  cases fs.read (entryPath directory key) with
  | error fault => simp
  | ok existing => simp

/-! ## The directory of a store -/

/-- Nothing in the directory of a store is named as an entry, as it stands or as it is
made; the empty path names no directory. -/
structure Fresh (directory : String) (start : FileSystem) : Prop where
  named : directory ≠ ""
  vacant : entryNames directory (start.makeDirs directory).2 = []

/-- What a store with some bytes under the keys finds: its directory is not made yet, or
mirrors the bytes. -/
inductive Serves (directory : String) (start : FileSystem) (drafted : Key → Prop)
    (find : Key → Option Bytes) (fs : FileSystem) : Prop
  | unmade (hstart : fs = start) (hfind : ∀ key, find key = none)
  | made (place : Location) (hready : Ready directory place (start.makeDirs directory).2)
      (hmirrors : Mirrors (start.makeDirs directory).2 place drafted find fs)

variable {directory : String} {start fs next : FileSystem} {drafted : Key → Prop}
  {find : Key → Option Bytes}

namespace Fresh

theorem ready (hfresh : Fresh directory start)
    (hmade : (start.makeDirs directory).1 = .ok ()) :
    ∃ place, Ready directory place (start.makeDirs directory).2 := by
  obtain ⟨place, hlocate, hplace⟩ := makeDirs_made hfresh.named hmade
  obtain ⟨names, hlist, -, hmem⟩ := list_of_directory hlocate hplace
  refine ⟨place, hlocate, hplace, ?_⟩
  intro name hending
  have hnames := hfresh.vacant
  unfold entryNames at hnames
  rw [hlist, List.filter_eq_nil_iff] at hnames
  have hmissing : name ∉ names := by
    intro hname
    exact hnames name hname (by simpa using hending)
  rw [hmem] at hmissing
  simpa using hmissing

theorem ready_start (hfresh : Fresh directory start) {place : Location}
    (hlocate : start.locate directory = .ok place)
    (hplace : start.isDirectoryAt place = true) : Ready directory place start := by
  have hmade := makeDirs_of_directory hlocate hplace
  obtain ⟨there, hready⟩ := hfresh.ready (by rw [hmade])
  rw [hmade] at hready
  have hsame : there = place := Except.ok.inj (hready.located.symm.trans hlocate)
  exact hsame ▸ hready

theorem entryNames_start (hfresh : Fresh directory start) :
    entryNames directory start = [] := by
  cases hlist : start.list directory with
  | error fault =>
    unfold entryNames
    rw [hlist]
  | ok names =>
    obtain ⟨place, hlocate, hplace⟩ := locate_of_list_eq_ok hlist
    have hvacant := hfresh.vacant
    rw [makeDirs_of_directory hlocate hplace] at hvacant
    exact hvacant

theorem clear_start (hfresh : Fresh directory start) :
    (disk directory).clear start = (.ok 0, start) := by
  dsimp only [disk]
  rw [hfresh.entryNames_start, removeFiles_nil]

theorem size_start (hfresh : Fresh directory start) : (disk directory).size start = 0 := by
  dsimp only [disk]
  rw [hfresh.entryNames_start]
  rfl

/-- Before the directory is made, there is no entry to read. -/
theorem read_start (hfresh : Fresh directory start) (key : Key) (bytes : Bytes) :
    start.read (entryPath directory key) ≠ .ok bytes := by
  intro hread
  obtain ⟨found, hlocate, hfile⟩ := read_eq_ok hread
  rw [entryPath_eq] at hlocate
  obtain ⟨-, place, hthere, hplace, rfl⟩ :=
    (locate_join_eq_ok_iff (isName_entryName key) hfresh.named).mp hlocate
  have hready := hfresh.ready_start hthere hplace
  rw [fileAt?, hready.vacant _ (extension?_entryName key)] at hfile
  cases hfile

theorem read_start_notFound (hfresh : Fresh directory start)
    (hmade : (start.makeDirs directory).1 = .ok ()) {key : Key}
    (hfault : fault? (entryPath directory key) = none) :
    start.read (entryPath directory key) = .error .notFound := by
  obtain ⟨place, hready⟩ := hfresh.ready hmade
  have hadds := start.makeDirs_addsDirectories directory
  have hmirrors := hready.mirrors fun _ => False
  have hlocate := hmirrors.locate_join hready hfresh.named (isName_entryName key) hfault
  cases hadds.locate_before hlocate with
  | inl hthere =>
    have hfile : start.isDirectoryAt (place ++ [entryName key]) = false := by
      by_contra hdir
      have hlater := hadds.directories _ (by simpa using hdir)
      rw [hready.no_directory key] at hlater
      cases hlater
    rw [entryPath_eq, read_of_locate hthere hfile, ← hadds.files, hmirrors.entries]
    rfl
  | inr hmissing => exact read_of_locate_error hmissing

end Fresh

namespace Serves

/-- Where the directory can be made, it mirrors the bytes from then on. -/
theorem makeDirs (hserves : Serves directory start drafted find fs)
    (hfresh : Fresh directory start) (hmade : (fs.makeDirs directory).1 = .ok ()) :
    ∃ place ready, fs.makeDirs directory = (.ok (), ready) ∧
      Ready directory place (start.makeDirs directory).2 ∧
      Mirrors (start.makeDirs directory).2 place drafted find ready := by
  cases hserves with
  | unmade hstart hfind =>
    subst hstart
    obtain ⟨place, hready⟩ := hfresh.ready hmade
    have hnone : find = fun _ => none := funext hfind
    refine ⟨place, (fs.makeDirs directory).2, ?_, hready, hnone ▸ hready.mirrors drafted⟩
    rw [← hmade]
  | made place hready hmirrors =>
    exact ⟨place, fs, makeDirs_of_directory (hmirrors.locate_directory hready)
      (hmirrors.isDirectoryAt_place hready), hready, hmirrors⟩

/-- A draft that could be written stands in a directory that mirrors the bytes. -/
theorem writeDraft (hserves : Serves directory start drafted find fs)
    (hfresh : Fresh directory start) {key : Key} (hkey : drafted key) {bytes : Bytes}
    (hwritten : (Store.writeDraft directory key bytes fs).1 = .ok ()) :
    ∃ place next, Store.writeDraft directory key bytes fs = (.ok (), next) ∧
      Ready directory place (start.makeDirs directory).2 ∧
      Writable directory place (start.makeDirs directory).2 key ∧
      Mirrors (start.makeDirs directory).2 place drafted find next ∧
      next.fileAt? (place ++ [draftName key]) = some bytes := by
  obtain ⟨hreported, -⟩ := andThen_eq_ok hwritten
  have hmade : (fs.makeDirs directory).1 = .ok () := by
    rw [reported_eq_ok hreported]
  obtain ⟨place, ready, hdirs, hready, hmirrors⟩ := hserves.makeDirs hfresh hmade
  unfold Store.writeDraft at hwritten ⊢
  rw [hdirs, reported_ok, andThen_ok] at hwritten ⊢
  have hwritable : Writable directory place (start.makeDirs directory).2 key := by
    cases hwrite : ready.write (draftPath directory key) bytes with
    | ok next => exact hmirrors.writable_of_write hready hfresh.named hwrite
    | error fault =>
      rw [hwrite] at hwritten
      cases hwritten
  obtain ⟨next, hwrite, hnext, hdraft⟩ :=
    hmirrors.write_draft hready hfresh.named hwritable hkey bytes
  refine ⟨place, next, ?_, hready, hwritable, hnext, hdraft⟩
  rw [hwrite, attempt_ok]

theorem find_of_read (hserves : Serves directory start drafted find fs)
    (hfresh : Fresh directory start) {key : Key} {bytes : Bytes}
    (hread : fs.read (entryPath directory key) = .ok bytes) : find key = some bytes := by
  cases hserves with
  | unmade hstart hfind =>
    rw [hstart] at hread
    exact absurd hread (hfresh.read_start key bytes)
  | made place hready hmirrors => exact hmirrors.find_of_read hready hfresh.named hread

/-! ## Calls that succeed -/

theorem load_ok (hserves : Serves directory start drafted find fs)
    (hfresh : Fresh directory start) {key : Key} {found : Option Bytes}
    (hload : (disk directory).load key fs = .ok found) : found = find key := by
  dsimp only [disk] at hload
  split at hload
  · rename_i bytes hread
    cases hload
    exact (hserves.find_of_read hfresh hread).symm
  · rename_i hread
    cases hload
    cases hserves with
    | unmade hstart hfind => exact (hfind key).symm
    | made place hready hmirrors =>
      have hfault := fault?_of_read_notFound (entryPath_ne_empty hfresh.named key) hread
      rw [hmirrors.read_entryPath hready hfresh.named hfault] at hread
      cases hfind : find key with
      | none => rfl
      | some bytes =>
        rw [hfind] at hread
        cases hread
  · cases hload

theorem save_ok (hserves : Serves directory start drafted find fs)
    (hfresh : Fresh directory start) {key : Key} (hkey : drafted key) {bytes : Bytes}
    (hsaved : (saveFile directory key bytes fs).1 = .ok ()) :
    Serves directory start drafted (fun other => if other = key then some bytes else find other)
      (saveFile directory key bytes fs).2 := by
  rw [saveFile_eq] at hsaved ⊢
  split at hsaved
  · rename_i hread
    rw [if_pos hread]
    have hsame : (fun other => if other = key then some bytes else find other) = find := by
      funext other
      split
      · rename_i hother
        rw [hother, hserves.find_of_read hfresh hread]
      · rfl
    rw [hsame]
    exact hserves
  · rename_i hread
    rw [if_neg hread]
    rw [saveFile_write_eq] at hsaved ⊢
    obtain ⟨hdraft, hmoved⟩ := andThen_eq_ok hsaved
    obtain ⟨place, written, hwritten, hready, hwritable, hmirrors, hfile⟩ :=
      hserves.writeDraft hfresh hkey hdraft
    obtain ⟨next, hrename, hnext⟩ :=
      hmirrors.rename_draft hready hfresh.named hwritable hkey hfile
    rw [hmoved, hwritten, hrename]
    exact .made place hready hnext

theorem size_eq {entries : Entries}
    (hserves : Serves directory start drafted entries.find? fs)
    (hfresh : Fresh directory start) : (disk directory).size fs = entries.size := by
  cases hserves with
  | unmade hstart hfind => rw [hstart, hfresh.size_start, Bindings.size_eq_zero hfind]
  | made place hready hmirrors => exact hmirrors.length_entryNames hready

theorem clear_ok {entries : Entries} {n : Nat}
    (hserves : Serves directory start drafted entries.find? fs)
    (hfresh : Fresh directory start) (hclear : (disk directory).clear fs = (.ok n, next)) :
    n = entries.size ∧ Serves directory start drafted (fun _ => none) next := by
  cases hserves with
  | unmade hstart hfind =>
    rw [hstart, hfresh.clear_start] at hclear
    cases hclear
    exact ⟨(Bindings.size_eq_zero hfind).symm, .unmade rfl fun _ => rfl⟩
  | made place hready hmirrors =>
    obtain ⟨hcount, hnext⟩ := hmirrors.clear_ok hready hclear
    exact ⟨hcount, .made place hready hnext⟩

/-- A call that succeeds on disk is answered as in memory and does the same to the
entries. -/
theorem perform {entries : Entries}
    (hserves : Serves directory start drafted entries.find? fs)
    (hfresh : Fresh directory start) {call : Call}
    (hdrafts : ∀ key, call.Drafts key → drafted key)
    (hsucceeds : (call.perform (interruptibleDisk directory) fs).1.succeeds) :
    (call.perform (interruptibleDisk directory) fs).1 =
        (call.perform interruptibleMemory entries).1 ∧
      Serves directory start drafted (call.perform interruptibleMemory entries).2.find?
        (call.perform (interruptibleDisk directory) fs).2 := by
  rw [Call.perform_disk] at hsucceeds ⊢
  cases call with
  | load key =>
    dsimp only [Answer.succeeds] at hsucceeds ⊢
    obtain ⟨found, hload⟩ := exists_ok_of_isOk hsucceeds
    have hfound : found = entries.find? key := hserves.load_ok hfresh hload
    refine ⟨?_, hserves⟩
    rw [hload, hfound]
    rfl
  | save key bytes =>
    dsimp only [Answer.succeeds] at hsucceeds ⊢
    obtain ⟨⟨⟩, hsaved⟩ := exists_ok_of_isOk hsucceeds
    have hnext := hserves.save_ok hfresh (hdrafts key rfl) hsaved
    have hfind : (memory.save key bytes entries).2.find? =
        fun other => if other = key then some bytes else entries.find? other :=
      funext fun other => memory_save_find? key other bytes entries
    rw [← hfind] at hnext
    refine ⟨?_, hnext⟩
    rw [hsaved, ← memory_save_ok key bytes entries]
    rfl
  | interrupt key written =>
    dsimp only [Answer.succeeds] at hsucceeds ⊢
    obtain ⟨⟨⟩, hwritten⟩ := exists_ok_of_isOk hsucceeds
    obtain ⟨place, next, hdraft, hready, -, hnext, -⟩ :=
      hserves.writeDraft hfresh (hdrafts key rfl) hwritten
    rw [hdraft]
    exact ⟨rfl, .made place hready hnext⟩
  | clear =>
    dsimp only [Answer.succeeds] at hsucceeds ⊢
    obtain ⟨n, hcleared⟩ := exists_ok_of_isOk hsucceeds
    obtain ⟨hcount, hnext⟩ := hserves.clear_ok hfresh (Prod.ext hcleared rfl)
    refine ⟨?_, hnext⟩
    rw [hcleared, hcount]
    rfl
  | size =>
    refine ⟨?_, hserves⟩
    rw [hserves.size_eq hfresh]
    rfl

theorem answers_eq {entries : Entries} {calls : List Call}
    (hserves : Serves directory start drafted entries.find? fs)
    (hfresh : Fresh directory start)
    (hdrafts : ∀ call ∈ calls, ∀ key, call.Drafts key → drafted key)
    (hsucceed : ∀ answer ∈ answers (interruptibleDisk directory) fs calls, answer.succeeds) :
    answers (interruptibleDisk directory) fs calls =
        answers interruptibleMemory entries calls ∧
      Serves directory start drafted (after interruptibleMemory entries calls).find?
        (after (interruptibleDisk directory) fs calls) := by
  induction calls generalizing entries fs with
  | nil => exact ⟨rfl, hserves⟩
  | cons call rest ih =>
    obtain ⟨hhere, hthen⟩ := List.forall_mem_cons.mp hsucceed
    obtain ⟨hcall, hrest⟩ := List.forall_mem_cons.mp hdrafts
    obtain ⟨hanswer, hnext⟩ := hserves.perform hfresh hcall hhere
    obtain ⟨hanswers, hlast⟩ := ih hnext hrest hthen
    refine ⟨?_, hlast⟩
    rw [answers, answers, hanswer, hanswers]

end Serves

/-! ## When calls succeed -/

/-- The directory of a store can be made, and drafts of all keys can be written there. -/
structure Usable (directory : String) (start : FileSystem) : Prop where
  made : (start.makeDirs directory).1 = .ok ()
  named : ∀ key, fault? (draftPath directory key) = none
  free : ∀ key, (start.makeDirs directory).2.isDirectory (draftPath directory key) = false

theorem Usable.writable (husable : Usable directory start) (hfresh : Fresh directory start)
    {place : Location} (hready : Ready directory place (start.makeDirs directory).2)
    (key : Key) : Writable directory place (start.makeDirs directory).2 key := by
  refine ⟨husable.named key, ?_⟩
  have hfree := husable.free key
  have hfault := husable.named key
  rw [draftPath_eq hfresh.named] at hfree hfault
  have hlocate := (hready.mirrors (fun _ => False)).locate_join hready hfresh.named
    (isName_draftName key) hfault
  rw [isDirectory_of_locate hlocate] at hfree
  exact hfree

namespace Serves

theorem load_succeeds (hserves : Serves directory start drafted find fs)
    (hfresh : Fresh directory start) (husable : Usable directory start) (key : Key) :
    ∃ found, (disk directory).load key fs = .ok found := by
  have hfault := fault?_entryPath_of_draftPath hfresh.named (husable.named key)
  cases hserves with
  | made place hready hmirrors =>
    exact ⟨find key, hmirrors.load_eq hready hfresh.named hfault⟩
  | unmade hstart hfind =>
    rw [hstart]
    refine ⟨none, ?_⟩
    dsimp only [disk]
    rw [hfresh.read_start_notFound husable.made hfault]

theorem writeDraft_succeeds (hserves : Serves directory start drafted find fs)
    (hfresh : Fresh directory start) (husable : Usable directory start) {key : Key}
    (hkey : drafted key) (bytes : Bytes) :
    (Store.writeDraft directory key bytes fs).1 = .ok () := by
  have hmade : (fs.makeDirs directory).1 = .ok () := by
    cases hserves with
    | unmade hstart hfind => rw [hstart, husable.made]
    | made place hready hmirrors =>
      rw [makeDirs_of_directory (hmirrors.locate_directory hready)
        (hmirrors.isDirectoryAt_place hready)]
  obtain ⟨place, ready, hdirs, hready, hmirrors⟩ := hserves.makeDirs hfresh hmade
  obtain ⟨next, hwrite, -⟩ := hmirrors.write_draft hready hfresh.named
    (husable.writable hfresh hready key) hkey bytes
  rw [Store.writeDraft, hdirs, reported_ok, andThen_ok, hwrite, attempt_ok]

theorem save_succeeds (hserves : Serves directory start drafted find fs)
    (hfresh : Fresh directory start) (husable : Usable directory start) {key : Key}
    (hkey : drafted key) (bytes : Bytes) : (saveFile directory key bytes fs).1 = .ok () := by
  rw [saveFile_eq]
  split
  · rfl
  · obtain ⟨place, written, hwritten, hready, hwritable, hmirrors, hfile⟩ :=
      hserves.writeDraft hfresh hkey (hserves.writeDraft_succeeds hfresh husable hkey bytes)
    obtain ⟨next, hrename, -⟩ :=
      hmirrors.rename_draft hready hfresh.named hwritable hkey hfile
    rw [saveFile_write_eq, hwritten, andThen_ok, hrename, attempt_ok]

theorem clear_succeeds (hserves : Serves directory start drafted find fs)
    (hfresh : Fresh directory start) (husable : Usable directory start) :
    ∃ n next, (disk directory).clear fs = (.ok n, next) := by
  cases hserves with
  | unmade hstart hfind =>
    rw [hstart]
    exact ⟨0, start, hfresh.clear_start⟩
  | made place hready hmirrors =>
    obtain ⟨hnodup, hmem⟩ := hmirrors.mem_entryNames hready
    exact hmirrors.removeFiles_succeeds 0 hready
      (fun key => fault?_entryPath_of_draftPath hfresh.named (husable.named key)) hnodup
      fun name hname => (hmem name).mp hname

theorem perform_succeeds (hserves : Serves directory start drafted find fs)
    (hfresh : Fresh directory start) (husable : Usable directory start) {call : Call}
    (hdrafts : ∀ key, call.Drafts key → drafted key) :
    (call.perform (interruptibleDisk directory) fs).1.succeeds := by
  rw [Call.perform_disk]
  cases call with
  | load key =>
    obtain ⟨found, hload⟩ := hserves.load_succeeds hfresh husable key
    dsimp only [Answer.succeeds]
    rw [hload]
    rfl
  | save key bytes =>
    dsimp only [Answer.succeeds]
    rw [hserves.save_succeeds hfresh husable (hdrafts key rfl) bytes]
    rfl
  | interrupt key written =>
    dsimp only [Answer.succeeds]
    rw [hserves.writeDraft_succeeds hfresh husable (hdrafts key rfl) written]
    rfl
  | clear =>
    obtain ⟨n, next, hclear⟩ := hserves.clear_succeeds hfresh husable
    dsimp only [Answer.succeeds]
    rw [hclear]
    rfl
  | size => rfl

theorem answers_succeed {entries : Entries} {calls : List Call}
    (hserves : Serves directory start drafted entries.find? fs)
    (hfresh : Fresh directory start) (husable : Usable directory start)
    (hdrafts : ∀ call ∈ calls, ∀ key, call.Drafts key → drafted key) :
    ∀ answer ∈ answers (interruptibleDisk directory) fs calls, answer.succeeds := by
  induction calls generalizing entries fs with
  | nil =>
    intro answer hmem
    cases hmem
  | cons call rest ih =>
    obtain ⟨hcall, hrest⟩ := List.forall_mem_cons.mp hdrafts
    have hhere := hserves.perform_succeeds hfresh husable hcall
    obtain ⟨-, hnext⟩ := hserves.perform hfresh hcall hhere
    exact List.forall_mem_cons.mpr ⟨hhere, ih hnext hrest⟩

theorem others (hserves : Serves directory start drafted find fs) {other : Location}
    (hforeign : ∀ place, fs.locate directory = .ok place → ¬ IsOwn place drafted other) :
    fs.fileAt? other = start.fileAt? other ∧
      (start.isDirectoryAt other = true → fs.isDirectoryAt other = true) := by
  cases hserves with
  | unmade hstart hfind =>
    rw [hstart]
    exact ⟨rfl, id⟩
  | made place hready hmirrors =>
    have hadds := start.makeDirs_addsDirectories directory
    constructor
    · rw [hmirrors.others other (hforeign place (hmirrors.locate_directory hready)),
        hadds.files]
    · intro hother
      rw [hmirrors.directories, hadds.directories other hother]

end Serves

/-- A store on disk whose directory holds nothing named as an entry answers every
sequence of calls as one in memory does, however often a saving is interrupted, if no
call fails; and it leaves all files alone but its entries and the drafts of the keys that
were saved.  No call fails if the directory can be made and drafts can be written there. -/
theorem disk_answers_as_memory
    {directory : String} {start : FileSystem} (hnamed : directory ≠ "")
    (hvacant : entryNames directory (start.makeDirs directory).2 = []) (calls : List Call) :
    (Usable directory start →
      ∀ answer ∈ answers (interruptibleDisk directory) start calls, answer.succeeds) ∧
    ((∀ answer ∈ answers (interruptibleDisk directory) start calls, answer.succeeds) →
      answers (interruptibleDisk directory) start calls =
        answers interruptibleMemory Bindings.empty calls ∧
      ∀ other,
        (∀ place,
          (after (interruptibleDisk directory) start calls).locate directory = .ok place →
          ¬ IsOwn place (fun key => ∃ call ∈ calls, call.Drafts key) other) →
        (after (interruptibleDisk directory) start calls).fileAt? other =
            start.fileAt? other ∧
          (start.isDirectoryAt other = true →
            (after (interruptibleDisk directory) start calls).isDirectoryAt other = true)) := by
  have hfresh : Fresh directory start := ⟨hnamed, hvacant⟩
  have hserves : Serves directory start (fun key => ∃ call ∈ calls, call.Drafts key)
      (Bindings.empty : Entries).find? start := .unmade rfl fun _ => rfl
  have hdrafts : ∀ call ∈ calls, ∀ key, call.Drafts key → ∃ call ∈ calls, call.Drafts key :=
    fun call hcall key hkey => ⟨call, hcall, hkey⟩
  constructor
  · intro husable
    exact hserves.answers_succeed hfresh husable hdrafts
  · intro hsucceed
    obtain ⟨hanswers, hlast⟩ := hserves.answers_eq hfresh hdrafts hsucceed
    exact ⟨hanswers, fun other hforeign => hlast.others hforeign⟩

/-- A directory with notes in it, where one saving ends well and one stops half-way. -/
theorem cleared_disk_keeps_notes :
    let start : FileSystem :=
      ⟨Bindings.ofList [(["c"], .directory 0), (["c", "notes.txt"], .file [1] 0)], [], 0⟩
    let calls : List Call := [.load ⟨1⟩, .save ⟨1⟩ [1, 2], .interrupt ⟨2⟩ [9], .size,
      .load ⟨2⟩, .load ⟨1⟩, .clear, .size]
    "c" ≠ "" ∧ entryNames "c" (start.makeDirs "c").2 = [] ∧
      answers (interruptibleDisk "c") start calls =
        [.loaded (.ok none), .saved (.ok ()), .saved (.ok ()), .counted 1,
          .loaded (.ok none), .loaded (.ok (some [1, 2])), .cleared (.ok 1), .counted 0] ∧
      (after (interruptibleDisk "c") start calls).fileAt? ["c", "notes.txt"] = some [1] := by
  intro start calls
  have hlocate : start.locate "c" = .ok ["c"] := rfl
  have hmade : start.makeDirs "c" = (.ok (), start) := makeDirs_of_directory hlocate rfl
  have hvacant : entryNames "c" (start.makeDirs "c").2 = [] := by
    rw [hmade]
    rfl
  have hnamed : ∀ key, fault? (draftPath "c" key) = none := fault?_draftPath rfl (by decide)
  have husable : Usable "c" start := by
    refine ⟨by rw [hmade], hnamed, ?_⟩
    intro key
    have hdraft := hnamed key
    rw [draftPath_eq (by decide)] at hdraft ⊢
    have hthere : start.locate (Path.join "c" (draftName key)) = .ok ["c", draftName key] :=
      (locate_join_eq_ok_iff (isName_draftName key) (by decide)).mpr
        ⟨hdraft, ["c"], hlocate, rfl, rfl⟩
    rw [hmade, isDirectory_of_locate hthere]
    by_cases hnotes : draftName key = "notes.txt"
    · rw [hnotes]
      rfl
    · simp [isDirectoryAt, node?, start, Bindings.ofList, Bindings.find?_insert, hnotes]
  obtain ⟨hsucceed, hsame⟩ := disk_answers_as_memory (by decide) hvacant calls
  obtain ⟨hanswers, hothers⟩ := hsame (hsucceed husable)
  refine ⟨by decide, hvacant, hanswers, ?_⟩
  have hlast : ∀ place name, ["c", "notes.txt"] = place ++ [name] → name = "notes.txt" := by
    intro place name hplace
    have hend := congrArg List.getLast? hplace
    simpa using hend.symm
  refine (hothers ["c", "notes.txt"] ?_).1
  rintro place - (⟨key, hkey⟩ | ⟨key, -, hkey⟩)
  · have hending := extension?_entryName key
    rw [hlast place _ hkey] at hending
    exact absurd hending (by decide)
  · have hending := extension?_draftName key
    rw [hlast place _ hkey] at hending
    exact absurd hending (by decide)

end Store
end Cache
end LineShell
