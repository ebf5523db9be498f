/-!
# Bindings

A finite map from keys to values, in which each key is bound at most once.  What
a map says of a key is seen through `find?`; the two ways to change a map, `insert`
and `erase`, are described by what they do to that view.
-/

namespace LineShell

/-- Keys with their values; no key stands twice. -/
structure Bindings (κ α : Type) where
  entries : List (κ × α)
  nodup : (entries.map Prod.fst).Nodup

namespace Bindings

variable {κ α : Type}

def empty : Bindings κ α :=
  ⟨[], List.nodup_nil⟩

instance : Inhabited (Bindings κ α) :=
  ⟨empty⟩

def keys (map : Bindings κ α) : List κ :=
  map.entries.map Prod.fst

def size (map : Bindings κ α) : Nat :=
  map.entries.length

def isEmpty (map : Bindings κ α) : Bool :=
  map.entries.isEmpty

variable [DecidableEq κ]

def find? (map : Bindings κ α) (key : κ) : Option α :=
  map.entries.lookup key

def contains (map : Bindings κ α) (key : κ) : Bool :=
  (map.find? key).isSome

def erase (map : Bindings κ α) (key : κ) : Bindings κ α where
  entries := map.entries.filter fun entry => entry.1 ≠ key
  nodup := by
    have hsub := (List.filter_sublist (l := map.entries)
      (p := fun entry => entry.1 ≠ key)).map Prod.fst
    exact hsub.nodup map.nodup

theorem not_mem_keys_erase (map : Bindings κ α) (key : κ) :
    key ∉ (map.erase key).entries.map Prod.fst := by
  simp [erase]

/-- The map with a key bound to a value, whatever it was bound to before. -/
def insert (map : Bindings κ α) (key : κ) (value : α) : Bindings κ α where
  entries := (key, value) :: (map.erase key).entries
  nodup := by
    rw [List.map_cons]
    exact List.nodup_cons.2 ⟨map.not_mem_keys_erase key, (map.erase key).nodup⟩

/-- The map of a list of keys with values, of which a later one wins. -/
def ofList (entries : List (κ × α)) : Bindings κ α :=
  entries.foldl (fun map entry => map.insert entry.1 entry.2) empty

@[simp] theorem find?_empty (key : κ) : (empty : Bindings κ α).find? key = none :=
  rfl

theorem lookup_filter_ne (entries : List (κ × α)) (key other : κ) :
    (entries.filter fun entry => entry.1 ≠ key).lookup other =
      if other = key then none else entries.lookup other := by
  induction entries with
  | nil => simp
  | cons entry rest ih =>
    obtain ⟨k, v⟩ := entry
    by_cases hk : k = key
    · subst hk
      by_cases ho : other = k
      · subst ho
        simpa using ih
      · have hne : (other == k) = false := by simpa using ho
        simp [List.lookup_cons, hne, ho] at ih ⊢
        exact ih
    · by_cases ho : other = k
      · subst ho
        simp [hk]
      · have hne : (other == k) = false := by simpa using ho
        simp [List.lookup_cons, hk, hne] at ih ⊢
        exact ih

/-- Erasing a key unbinds it and leaves the other keys alone. -/
theorem find?_erase (map : Bindings κ α) (key other : κ) :
    (map.erase key).find? other = if other = key then none else map.find? other :=
  lookup_filter_ne map.entries key other

/-- Inserting binds the key to the value and leaves the other keys alone. -/
theorem find?_insert (map : Bindings κ α) (key other : κ) (value : α) :
    (map.insert key value).find? other =
      if other = key then some value else map.find? other := by
  by_cases h : other = key
  · subst h
    simp [find?, insert]
  · have hne : (other == key) = false := by simpa using h
    have herase := map.find?_erase key other
    simp only [find?, insert, List.lookup_cons, hne] at herase ⊢
    simpa [h] using herase

/-- A key is bound exactly if it is one of the keys. -/
theorem isSome_find?_iff (map : Bindings κ α) (key : κ) :
    (map.find? key).isSome ↔ key ∈ map.keys := by
  simp [find?, keys]

theorem size_eq_zero {map : Bindings κ α} (hfind : ∀ key, map.find? key = none) :
    map.size = 0 := by
  have hkeys : map.keys = [] := by
    refine List.eq_nil_iff_forall_not_mem.mpr fun key hkey => ?_
    rw [← isSome_find?_iff, hfind key] at hkey
    cases hkey
  simpa [keys, size] using hkeys

end Bindings
end LineShell
