import LineShell.Cache.Store
import LineShell.Proofs.Directories
import LineShell.Proofs.Text.Numeral
import Mathlib.Tactic

/-!
# The names of entries and drafts

An entry's file is named by the digits of its key, which tell the keys apart, and ends as
the names of entries do; a draft's name ends otherwise.  Both are names of a directory's
entries, whatever the key is.
-/

namespace LineShell
namespace Cache
namespace Store

open Text

def entryName (key : Key) : String :=
  key.render ++ "." ++ ending

def draftName (key : Key) : String :=
  entryName key ++ ".tmp"

theorem toList_entryName (key : Key) :
    (entryName key).toList = Numeral.hex 32 key.value.toNat ++ '.' :: ending.toList := by
  simp [entryName, Key.render, Numeral.hexText]

theorem toList_draftName (key : Key) :
    (draftName key).toList =
      Numeral.hex 32 key.value.toNat ++ '.' :: (ending.toList ++ '.' :: "tmp".toList) := by
  simp [draftName, toList_entryName]

theorem entryName_injective : Function.Injective entryName := by
  intro key other hsame
  have hchars := congrArg String.toList hsame
  rw [toList_entryName, toList_entryName] at hchars
  have hdigits := (List.append_inj hchars (by simp)).1
  have hvalue : key.value.toNat = other.value.toNat :=
    Numeral.hex_inj key.value.isLt other.value.isLt hdigits
  cases key
  cases other
  rw [Key.mk.injEq]
  exact BitVec.eq_of_toNat_eq hvalue

/-! ## Digits in names -/

/-- A character of one byte that a name can hold. -/
def isPlain (c : Char) : Bool :=
  c != '/' && c != Path.announcer && decide (c.toNat ≤ 0x7F)

theorem isPlain_iff {c : Char} :
    isPlain c ↔ c ≠ '/' ∧ c ≠ Path.announcer ∧ c.toNat ≤ 0x7F := by
  simp [isPlain, and_assoc]

theorem plain_of_mem_hex {width n : Nat} {c : Char} (hc : c ∈ Numeral.hex width n) :
    c ≠ '.' ∧ isPlain c := by
  have hdigit : ∀ d < 16, Nat.digitChar d ≠ '.' ∧ isPlain (Nat.digitChar d) := by decide
  obtain ⟨d, hd, rfl⟩ := Numeral.exists_of_mem_hex hc
  exact hdigit d hd

theorem splitAt_name (n : Nat) (back : List Char) :
    Path.splitAt '.' (Numeral.hex 32 n ++ '.' :: back) =
      Numeral.hex 32 n :: Path.splitAt '.' back := by
  have hwhole : '.' ∉ Numeral.hex 32 n := fun hmem => (plain_of_mem_hex hmem).1 rfl
  rw [Path.splitAt_append, Path.splitAt_of_notMem hwhole]
  rfl

theorem extension?_entryName (key : Key) :
    Path.extension? (entryName key) = some ending := by
  have hdigits : Numeral.hex 32 key.value.toNat ≠ [] := by
    rw [← List.length_pos_iff, Numeral.length_hex]
    decide
  have hparts : Path.splitAt '.' (entryName key).toList =
      [Numeral.hex 32 key.value.toNat, ending.toList] := by
    rw [toList_entryName, splitAt_name]
    rfl
  unfold Path.extension?
  rw [hparts]
  simp [hdigits]

theorem extension?_draftName (key : Key) : Path.extension? (draftName key) = some "tmp" := by
  have hparts : Path.splitAt '.' (draftName key).toList =
      [Numeral.hex 32 key.value.toNat, ending.toList, "tmp".toList] := by
    rw [toList_draftName, splitAt_name]
    rfl
  unfold Path.extension?
  rw [hparts]
  simp

theorem extension?_draftName_ne (key : Key) :
    Path.extension? (draftName key) ≠ some ending := by
  rw [extension?_draftName]
  decide

theorem draftName_ne_entryName (key other : Key) : draftName key ≠ entryName other := by
  intro hsame
  apply extension?_draftName_ne key
  rw [hsame]
  exact extension?_entryName other

theorem plain_of_toList {name : String} {n : Nat} {back : List Char}
    (hname : name.toList = Numeral.hex 32 n ++ back) (hback : back.all isPlain) :
    ∀ c ∈ name.toList, c ≠ '/' ∧ c ≠ Path.announcer ∧ c.toNat ≤ 0x7F := by
  intro c hc
  rw [hname, List.mem_append] at hc
  rw [← isPlain_iff]
  cases hc with
  | inl hdigit => exact (plain_of_mem_hex hdigit).2
  | inr hend => exact List.all_eq_true.mp hback c hend

theorem size_of_toList {name : String} {n : Nat} {back : List Char}
    (hname : name.toList = Numeral.hex 32 n ++ back) (hback : back.all isPlain) :
    Path.size name = 32 + back.length := by
  rw [Path.size_of_ascii fun c hc => (plain_of_toList hname hback c hc).2, hname,
    List.length_append, Numeral.length_hex]

/-- Digits with a short end behind them name an entry of a directory. -/
theorem isName_of_toList {name : String} {n : Nat} {back : List Char}
    (hname : name.toList = Numeral.hex 32 n ++ back) (hshort : back.length ≤ 200)
    (hback : back.all isPlain) : Path.IsName name := by
  have hother : ∀ text : String, text.toList.length < 32 → name ≠ text := by
    rintro text htext rfl
    rw [hname, List.length_append, Numeral.length_hex] at htext
    omega
  constructor
  · simp [Path.isIdle, hother "" (by decide), hother "." (by decide)]
  · exact hother ".." (by decide)
  · intro hslash
    exact (plain_of_toList hname hback '/' hslash).1 rfl
  · rw [size_of_toList hname hback]
    unfold Path.nameLimit
    omega

theorem isName_entryName (key : Key) : Path.IsName (entryName key) :=
  isName_of_toList (toList_entryName key) (by decide) (by decide)

theorem isName_draftName (key : Key) : Path.IsName (draftName key) :=
  isName_of_toList (toList_draftName key) (by decide) (by decide)

/-! ## Paths of entries and drafts -/

theorem entryPath_eq (directory : String) (key : Key) :
    entryPath directory key = Path.join directory (entryName key) := rfl

theorem draftPath_eq {directory : String} (hdirectory : directory ≠ "") (key : Key) :
    draftPath directory key = Path.join directory (draftName key) := by
  rw [draftPath, entryPath_eq, (isName_entryName key).join hdirectory,
    (isName_draftName key).join hdirectory, draftName]
  split
  · rw [String.append_assoc]
  · rw [String.append_assoc, String.append_assoc]

theorem entryPath_ne_empty {directory : String} (hdirectory : directory ≠ "") (key : Key) :
    entryPath directory key ≠ "" := by
  obtain ⟨more, hmore⟩ := (isName_entryName key).exists_join_eq hdirectory
  rw [entryPath_eq, hmore]
  intro hempty
  rw [String.append_eq_empty_iff] at hempty
  exact hdirectory hempty.1

theorem fault?_entryPath_of_draftPath {directory : String} {key : Key}
    (hdirectory : directory ≠ "")
    (hdraft : FileSystem.fault? (draftPath directory key) = none) :
    FileSystem.fault? (entryPath directory key) = none :=
  FileSystem.fault?_eq_none_of_append (entryPath_ne_empty hdirectory key) hdraft

/-- Drafts of all keys can be named in a directory whose path leaves room for them. -/
theorem fault?_draftPath {directory : String} (hfault : FileSystem.fault? directory = none)
    (hroom : Path.size directory + 42 ≤ Path.lengthLimit) (key : Key) :
    FileSystem.fault? (draftPath directory key) = none := by
  obtain ⟨hnul, hdirectory, -⟩ := FileSystem.fault?_eq_none_iff.mp hfault
  have hchars := toList_draftName key
  have hsize : Path.size (draftName key) = 41 := size_of_toList hchars (by decide)
  have hname : Path.announcer ∉ (draftName key).toList := fun hmem =>
    (plain_of_toList hchars (by decide) _ hmem).2.1 rfl
  have hwhole : ∀ middle : String, Path.announcer ∉ middle.toList → Path.size middle ≤ 1 →
      FileSystem.fault? (directory ++ (middle ++ draftName key)) = none := by
    intro middle hmiddle hshort
    have hrest : Path.announcer ∉ (middle ++ draftName key).toList := by
      simp [hmiddle, hname]
    have hall : Path.announcer ∉ (directory ++ (middle ++ draftName key)).toList := by
      simp [hnul, hmiddle, hname]
    refine FileSystem.fault?_eq_none_iff.mpr ⟨hall, ?_, ?_⟩
    · simp [hdirectory]
    · rw [Path.size_append hall, Path.size_append hrest, hsize]
      omega
  rw [draftPath_eq hdirectory, (isName_draftName key).join hdirectory]
  split
  · simpa using hwhole "" (by decide) (by decide)
  · exact hwhole "/" (by decide) (by decide)

end Store
end Cache
end LineShell
