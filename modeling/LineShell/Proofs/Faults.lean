/-!
# Steps that may fail

What the end of a computation says of its steps.
-/

namespace LineShell

variable {ε α β : Type}

/-- Steps that may fail end well only if the first of them does. -/
theorem exists_of_bind_eq_ok
    {first : Except ε α} {next : α → Except ε β} {b : β}
    (hsteps : (first >>= next) = .ok b) : ∃ a, first = .ok a ∧ next a = .ok b := by
  cases first with
  | error e => cases hsteps
  | ok a => exact ⟨a, rfl, hsteps⟩

/-- Steps that fail do so in the first of them or behind it. -/
theorem bind_eq_error
    {first : Except ε α} {next : α → Except ε β} {e : ε}
    (hsteps : (first >>= next) = .error e) :
    first = .error e ∨ ∃ a, first = .ok a ∧ next a = .error e := by
  cases first with
  | error fault => exact Or.inl (congrArg Except.error (Except.error.inj hsteps))
  | ok a => exact Or.inr ⟨a, rfl, hsteps⟩

/-- Steps over items that fail do so at one of the items, behind some that end well. -/
theorem exists_of_foldlM_eq_error
    {step : β → α → Except ε β} {start : β} {items : List α} {e : ε}
    (hfold : items.foldlM step start = .error e) :
    ∃ front item back middle, items = front ++ item :: back ∧
      front.foldlM step start = .ok middle ∧ step middle item = .error e := by
  induction items generalizing start with
  | nil => cases hfold
  | cons first rest ih =>
    rw [List.foldlM_cons] at hfold
    rcases bind_eq_error hfold with hfirst | ⟨next, hfirst, hrest⟩
    · exact ⟨[], first, rest, start, rfl, rfl, hfirst⟩
    · obtain ⟨front, item, back, middle, rfl, hfront, hitem⟩ := ih hrest
      refine ⟨first :: front, item, back, middle, rfl, ?_, hitem⟩
      rw [List.foldlM_cons, hfirst]
      exact hfront

theorem exists_of_map_eq_ok
    {first : Except ε α} {f : α → β} {b : β}
    (hmap : first.map f = .ok b) : ∃ a, first = .ok a ∧ f a = b := by
  cases first with
  | error e => cases hmap
  | ok a => exact ⟨a, rfl, Except.ok.inj hmap⟩

theorem eq_error_of_map_eq_error
    {first : Except ε α} {f : α → β} {e : ε}
    (hmap : first.map f = .error e) : first = .error e := by
  cases first with
  | error fault => exact congrArg Except.error (Except.error.inj hmap)
  | ok a => cases hmap

theorem exists_ok_of_isOk {result : Except ε α} (hok : result.isOk) :
    ∃ a, result = .ok a := by
  cases result with
  | ok a => exact ⟨a, rfl⟩
  | error e => cases hok

end LineShell
