import LineShell.Path
import LineShell.Proofs.Text.Utf8
import Mathlib.Tactic

/-!
# Joined paths

A path is divided at its slashes, so the parts of a directory's path with a name behind
it are those of the directory and the name; only a slash at the end of the directory's
path, which leaves an empty part there, is not doubled.
-/

namespace LineShell
namespace Path

open Text

/-! ## Dividing a text -/

theorem splitAt_ne_nil (c : Char) (text : List Char) : splitAt c text ≠ [] := by
  cases text with
  | nil => simp [splitAt]
  | cons d rest =>
    rw [splitAt]
    split
    · simp
    · split
      · simp
      · simp

theorem splitAt_of_notMem {c : Char} {text : List Char} (htext : c ∉ text) :
    splitAt c text = [text] := by
  induction text with
  | nil => rfl
  | cons d rest ih =>
    rw [List.mem_cons, not_or] at htext
    rw [splitAt, if_neg (Ne.symm htext.1), ih htext.2]

theorem splitAt_append (c : Char) (front back : List Char) :
    splitAt c (front ++ c :: back) = splitAt c front ++ splitAt c back := by
  induction front with
  | nil => simp [splitAt]
  | cons d rest ih =>
    rw [List.cons_append, splitAt, splitAt]
    by_cases hd : d = c
    · rw [if_pos hd, if_pos hd, ih]
      rfl
    · rw [if_neg hd, if_neg hd, ih]
      cases hparts : splitAt c rest with
      | nil => exact absurd hparts (splitAt_ne_nil c rest)
      | cons part others => rfl

/-- The last part of a text ends with what follows the last division. -/
theorem getLast?_splitAt_append
    {c : Char} {back : List Char} (hback : c ∉ back) (front : List Char) :
    ∃ last, (splitAt c (front ++ back)).getLast? = some (last ++ back) := by
  induction front with
  | nil => exact ⟨[], by rw [List.nil_append, splitAt_of_notMem hback]; rfl⟩
  | cons d rest ih =>
    obtain ⟨last, hlast⟩ := ih
    rw [List.cons_append, splitAt]
    cases hparts : splitAt c (rest ++ back) with
    | nil => exact absurd hparts (splitAt_ne_nil c _)
    | cons part others =>
      rw [hparts] at hlast
      by_cases hd : d = c
      · exact ⟨last, by rw [if_pos hd, List.getLast?_cons_cons]; exact hlast⟩
      · rw [if_neg hd]
        cases others with
        | nil =>
          have hpart : part = last ++ back := by simpa using hlast
          exact ⟨d :: last, by simp [hpart]⟩
        | cons other more =>
          exact ⟨last, by simpa using hlast⟩

/-! ## Names -/

/-- A text that names an entry of a directory. -/
structure IsName (name : String) : Prop where
  busy : isIdle name = false
  notUp : name ≠ ".."
  noSlash : '/' ∉ name.toList
  short : size name ≤ nameLimit

theorem IsName.isAbsolute {name : String} (hname : IsName name) :
    isAbsolute name = false := by
  unfold Path.isAbsolute
  rw [beq_eq_false_iff_ne]
  intro hhead
  exact hname.noSlash (List.mem_of_head? hhead)

theorem IsName.join {directory name : String} (hname : IsName name)
    (hdirectory : directory ≠ "") :
    join directory name =
      if directory.toList.getLast? = some '/' then directory ++ name
      else directory ++ ("/" ++ name) := by
  have hempty : directory.isEmpty = false := by
    rw [Bool.eq_false_iff, ne_eq, String.isEmpty_iff]
    exact hdirectory
  unfold Path.join
  rw [hname.isAbsolute, hempty, Bool.or_false, if_neg (by simp)]
  simp only [beq_iff_eq, String.append_assoc]

theorem IsName.exists_join_eq {directory name : String} (hname : IsName name)
    (hdirectory : directory ≠ "") : ∃ more, Path.join directory name = directory ++ more := by
  rw [hname.join hdirectory]
  split
  · exact ⟨name, rfl⟩
  · exact ⟨"/" ++ name, rfl⟩

theorem isAbsolute_append {path : String} (hpath : path ≠ "") (more : String) :
    isAbsolute (path ++ more) = isAbsolute path := by
  have hne : path.toList ≠ [] := by
    simpa using hpath
  unfold isAbsolute
  rw [String.toList_append, List.head?_append_of_ne_nil _ hne]

theorem IsName.parts_join {directory name : String} (hname : IsName name)
    (hdirectory : directory ≠ "") :
    ∃ front, parts (Path.join directory name) = front ++ [name] ∧
      (parts directory = front ∨ parts directory = front ++ [""]) := by
  have hlast : (Path.splitAt '/' name.toList).map String.ofList = [name] := by
    rw [splitAt_of_notMem hname.noSlash, List.map_singleton, String.ofList_toList]
  rw [hname.join hdirectory]
  unfold parts
  by_cases hslash : directory.toList.getLast? = some '/'
  · obtain ⟨front, hfront⟩ := List.getLast?_eq_some_iff.mp hslash
    refine ⟨(splitAt '/' front).map String.ofList, ?_, Or.inr ?_⟩
    · rw [if_pos hslash, String.toList_append, hfront, List.append_assoc,
        List.singleton_append, splitAt_append, List.map_append, hlast]
    · rw [hfront, splitAt_append, List.map_append]
      rfl
  · refine ⟨(splitAt '/' directory.toList).map String.ofList, ?_, Or.inl rfl⟩
    have hchars : (directory ++ ("/" ++ name)).toList = directory.toList ++ '/' :: name.toList := by
      simp
    rw [if_neg hslash, hchars, splitAt_append, List.map_append, hlast]

/-! ## The size of a path -/

theorem bytesOf_of_notMem {text : List Char} (htext : announcer ∉ text) :
    bytesOf text = Utf8.encodeChars text := by
  fun_induction bytesOf text with
  | case1 => rfl
  | case2 => rfl
  | case3 d rest ih => exact absurd List.mem_cons_self htext
  | case4 c d rest hc ih =>
    rw [List.mem_cons, not_or] at htext
    rw [ih htext.2, ← List.singleton_append]
    exact (List.flatMap_append ..).symm

theorem size_append {path more : String} (hpath : announcer ∉ (path ++ more).toList) :
    size (path ++ more) = size path + size more := by
  rw [String.toList_append] at hpath
  have hfront : announcer ∉ path.toList := fun hmem => hpath (List.mem_append_left _ hmem)
  have hback : announcer ∉ more.toList := fun hmem => hpath (List.mem_append_right _ hmem)
  unfold size
  rw [String.toList_append, bytesOf_of_notMem hpath, bytesOf_of_notMem hfront,
    bytesOf_of_notMem hback]
  simp [Utf8.encodeChars]

theorem size_of_ascii {name : String}
    (hname : ∀ c ∈ name.toList, c ≠ announcer ∧ c.toNat ≤ 0x7F) :
    size name = name.toList.length := by
  unfold size
  rw [bytesOf_of_notMem fun hmem => (hname _ hmem).1 rfl]
  exact Utf8.length_encodeChars_of_ascii fun c hc => (hname c hc).2

end Path
end LineShell
