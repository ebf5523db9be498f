import LineShell.Proofs.Cache.Entries
import LineShell.Proofs.FileSystem
import LineShell.Proofs.Path

/-!
# Entries on disk

A store on disk reads only files whose names end as those of entries do.  If all such
files hold sound bytes, wherever they stand, it loads sound entries; and saving makes
no file but with the bytes that it is given, whether it ends well or stops half-way.
-/

namespace LineShell
namespace Cache
namespace Store

/-- The characters that the name of an entry's file ends with. -/
def endingChars : List Char :=
  ('.' :: ending.toList)

/-- Every file named as an entry holds sound bytes. -/
def SoundFiles (sound : Bytes → Prop) (fs : FileSystem) : Prop :=
  ∀ place name bytes, place.getLast? = some name → endingChars <:+ name.toList →
    fs.fileAt? place = some bytes → sound bytes

theorem SoundFiles.noNewFile
    {sound : Bytes → Prop} {fs next : FileSystem} (hsound : SoundFiles sound fs)
    (hnext : fs.NoNewFile next) : SoundFiles sound next := by
  intro place name bytes hname hending hfile
  exact hsound place name bytes hname hending (hnext place bytes hfile)

theorem SoundFiles.onlyNew
    {sound : Bytes → Prop} {fs next : FileSystem} (hsound : SoundFiles sound fs)
    {bytes : Bytes} (hbytes : sound bytes) (hnext : fs.OnlyNew bytes next) :
    SoundFiles sound next := by
  intro place name found hname hending hfile
  rcases hnext place found hfile with hnew | hold
  · rw [hnew]
    exact hbytes
  · exact hsound place name found hname hending hold

/-! ## The name of an entry's file -/

/-- The path of an entry ends with a name that ends as names of entries do. -/
theorem parts_entryPath (directory : String) (key : Key) :
    ∃ name, (Path.parts (entryPath directory key)).getLast? = some name ∧
      endingChars <:+ name.toList := by
  obtain ⟨front, hpath⟩ : ∃ front, (entryPath directory key).toList = front ++ endingChars := by
    have hname : (key.render ++ "." ++ ending).toList = key.render.toList ++ endingChars := by
      simp [endingChars]
    unfold entryPath Path.join
    split
    · exact ⟨_, hname⟩
    · split
      · exact ⟨directory.toList ++ key.render.toList, by
          rw [String.toList_append, hname, List.append_assoc]⟩
      · exact ⟨directory.toList ++ '/' :: key.render.toList, by
          rw [String.toList_append, String.toList_append, hname]; simp⟩
  have hslash : '/' ∉ endingChars := by decide
  obtain ⟨last, hlast⟩ := Path.getLast?_splitAt_append hslash front
  refine ⟨String.ofList (last ++ endingChars), ?_, ?_⟩
  · unfold Path.parts
    rw [hpath, List.getLast?_map, hlast]
    rfl
  · rw [String.toList_ofList]
    exact List.suffix_append last endingChars

/-! ## Loading and saving -/

theorem locate_entryPath
    {directory : String} {key : Key} {fs : FileSystem} {place : Location}
    (hlocate : fs.locate (entryPath directory key) = .ok place) :
    ∃ name, place.getLast? = some name ∧ endingChars <:+ name.toList := by
  obtain ⟨name, hlast, hending⟩ := parts_entryPath directory key
  have hlong : endingChars.length ≤ name.toList.length := hending.length_le
  have hidle : Path.isIdle name = false := by
    unfold Path.isIdle
    rw [Bool.or_eq_false_iff, decide_eq_false_iff_not, decide_eq_false_iff_not]
    constructor
    · rintro rfl
      exact absurd hlong (by decide)
    · rintro rfl
      exact absurd hlong (by decide)
  have hup : name ≠ ".." := by
    rintro rfl
    exact absurd hlong (by decide)
  obtain ⟨_, hfollow⟩ := FileSystem.locate_eq_ok_iff.mp hlocate
  exact ⟨name, FileSystem.follow_getLast? hfollow hlast hidle hup, hending⟩

theorem load_sound
    {sound : Bytes → Prop} {directory : String} {key : Key} {fs : FileSystem}
    {raw : Bytes} (hsound : SoundFiles sound fs)
    (hload : (disk directory).load key fs = .ok (some raw)) : sound raw := by
  have hread : fs.read (entryPath directory key) = .ok raw := by
    unfold disk at hload
    dsimp only at hload
    split at hload
    · rename_i bytes hread
      cases hload
      exact hread
    · cases hload
    · cases hload
  obtain ⟨place, hlocate, hfile⟩ := FileSystem.read_eq_ok hread
  obtain ⟨name, hname, hending⟩ := locate_entryPath hlocate
  exact hsound place name raw hname hending hfile

/-- Writing a draft and moving it makes no file with other bytes, wherever it stops. -/
theorem write_sound
    {sound : Bytes → Prop} {directory : String} {fs : FileSystem} {bytes : Bytes}
    (hsound : SoundFiles sound fs) (hbytes : sound bytes) (path draft : String) :
    SoundFiles sound (saveFile.write directory bytes fs path draft).2 := by
  unfold saveFile.write
  have hdirs := hsound.noNewFile (fs.makeDirs_addsDirectories directory).noNewFile
  cases hmade : fs.makeDirs directory with
  | mk result ready =>
    rw [hmade] at hdirs
    cases result with
    | error fault => exact hdirs
    | ok _ =>
      change SoundFiles sound (andThen (attempt draft ready (ready.write draft bytes))
        fun fs => attempt path fs (fs.rename draft path)).2
      cases hwrite : ready.write draft bytes with
      | error fault => exact hdirs
      | ok written =>
        obtain ⟨hnew, hdraft⟩ := FileSystem.write_onlyNew hwrite
        have hwritten := hdirs.onlyNew hbytes hnew
        change SoundFiles sound (attempt path written (written.rename draft path)).2
        cases hrename : written.rename draft path with
        | error fault => exact hwritten
        | ok moved =>
          exact hwritten.onlyNew hbytes (FileSystem.rename_onlyNew hrename hdraft)

theorem saveFile_sound
    {sound : Bytes → Prop} {directory : String} {key : Key} {fs : FileSystem}
    {bytes : Bytes} (hsound : SoundFiles sound fs) (hbytes : sound bytes) :
    SoundFiles sound (saveFile directory key bytes fs).2 := by
  unfold saveFile
  dsimp only
  split
  · split
    · exact hsound
    · exact write_sound hsound hbytes (entryPath directory key) (draftPath directory key)
  · exact write_sound hsound hbytes (entryPath directory key) (draftPath directory key)

/-- A store on disk keeps its entries sound if every file named as an entry is. -/
theorem disk_keeps (directory : String) (sound : Bytes → Prop) :
    (disk directory).Keeps (SoundFiles sound) sound := by
  have hsave : (disk directory).save = saveFile directory := by
    dsimp only [disk]
  constructor
  · intro key fs raw hgood hload
    exact load_sound hgood hload
  · intro key fs bytes hgood hbytes
    rw [hsave]
    exact saveFile_sound hgood hbytes

end Store
end Cache
end LineShell
