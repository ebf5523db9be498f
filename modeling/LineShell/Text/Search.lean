/-!
# Search in texts
-/

namespace LineShell
namespace Text

/-- Whether a text occurs in another one; the empty text occurs everywhere. -/
def occursIn (needle : List Char) : List Char → Bool
  | [] => needle.isEmpty
  | c :: rest => needle.isPrefixOf (c :: rest) || occursIn needle rest

/-- A text occurs in another one exactly if it is one of its stretches. -/
theorem occursIn_iff (needle text : List Char) :
    occursIn needle text = true ↔ needle <:+: text := by
  induction text with
  | nil => simp [occursIn]
  | cons c rest ih =>
    simp only [occursIn, Bool.or_eq_true, List.isPrefixOf_iff_prefix, ih]
    exact List.infix_cons_iff.symm

/-- The place at which a text first occurs in another one, counted from one; zero if it
does not occur there. -/
def placeOf (needle : List Char) : List Char → Nat
  | [] => if needle.isEmpty then 1 else 0
  | c :: rest =>
    if needle.isPrefixOf (c :: rest) then 1
    else match placeOf needle rest with
      | 0 => 0
      | n + 1 => n + 2

theorem placeOf_pos_iff (needle text : List Char) :
    0 < placeOf needle text ↔ needle <:+: text := by
  induction text with
  | nil =>
    cases needle with
    | nil => simp [placeOf]
    | cons c rest => simp [placeOf]
  | cons c rest ih =>
    rw [List.infix_cons_iff, ← ih, placeOf, ← List.isPrefixOf_iff_prefix]
    by_cases hhere : needle.isPrefixOf (c :: rest) = true
    · simp [hhere]
    · cases placeOf needle rest with
      | zero => simp [hhere]
      | succ n => simp [hhere]

end Text
end LineShell
