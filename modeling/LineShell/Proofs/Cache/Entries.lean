import LineShell.Cache.UnitCache
import LineShell.Proofs.Cache.Artifact
import Mathlib.Tactic

/-!
# Entries that may be trusted

A compiler that answers for a source, a mode and a file name alone fixes what the
entries of its cache may say.  An entry is sound if it was written for one of the
compiler's answers, or if it cannot be read as typed input at all.  Keys play no
part in this: a sound entry may be filed anywhere.

A store keeps its entries sound if an invariant of its world makes what it loads
sound and survives every saving of a sound entry, be it well or ill done.
-/

namespace LineShell
namespace Cache

variable {ω σ : Type}

/-- What a compiler answers for a source, a mode and a file name. -/
abbrev Answers := String → Mode → String → Except CompileError CompiledUnit

/-- The bytes that compiling with an identified compiler may leave in a cache: for
typed input under the identity of the compiler, for a script under a stamp with a
time. -/
inductive Written (digest : DigestFunction) (compiler : String) (answers : Answers) :
    Bytes → Prop where
  | typed {source : String} {unit : CompiledUnit} {raw : Bytes}
      (hanswer : answers source .single stdinName = .ok unit)
      (hraw : Artifact.encode digest unit (.interactive compiler) = .ok raw) :
      Written digest compiler answers raw
  | script {source path : String} {modified : Option Int} {stamp : Stamp}
      {unit : CompiledUnit} {raw : Bytes}
      (hanswer : answers source .exec path = .ok unit)
      (hstamp : Stamp.script? compiler modified = some stamp)
      (hraw : Artifact.encode digest unit stamp = .ok raw) :
      Written digest compiler answers raw

/-- An entry was written for an answer of the compiler, or cannot be read as typed
input. -/
def Sound (digest : DigestFunction) (compiler : String) (answers : Answers)
    (raw : Bytes) : Prop :=
  Written digest compiler answers raw ∨
    ∀ unit, Artifact.decode digest raw (.interactive compiler) ≠ .ok unit

/-- A store keeps its entries sound as long as its world has a property. -/
structure Store.Keeps (store : Store ω) (good : ω → Prop) (sound : Bytes → Prop) :
    Prop where
  load_sound : ∀ {key world raw}, good world → store.load key world = .ok (some raw) →
    sound raw
  save_good : ∀ {key world bytes}, good world → sound bytes →
    good (store.save key bytes world).2

/-! ## Reading entries -/

theorem Stamp.script?_ne_interactive
    {compiler : String} {modified : Option Int} {stamp : Stamp}
    (hstamp : script? compiler modified = some stamp) : stamp ≠ interactive compiler := by
  unfold script? at hstamp
  cases modified with
  | none => cases hstamp
  | some time =>
    dsimp only at hstamp
    split at hstamp
    · cases hstamp
      intro hequal
      have hlength := congrArg (fun stamp => stamp.text.length) hequal
      simp only [interactive, String.length_append] at hlength
      have hat : "@".length = 1 := rfl
      omega
    · cases hstamp

/-- What a sound entry says as typed input is an answer of the compiler to typed
input. -/
theorem Sound.answer
    {digest : DigestFunction} {compiler : String} {answers : Answers} {raw : Bytes}
    {unit : CompiledUnit} (hsound : Sound digest compiler answers raw)
    (hdecode : Artifact.decode digest raw (.interactive compiler) = .ok unit) :
    ∃ source, answers source .single stdinName = .ok unit := by
  rcases hsound with hwritten | hunread
  · cases hwritten with
    | typed hanswer hraw =>
      obtain ⟨⟨_, hunit⟩, _⟩ := (Artifact.decode_eq_ok_iff hraw _ _).mp hdecode
      rw [hunit]
      exact ⟨_, hanswer⟩
    | script hanswer hstamp hraw =>
      obtain ⟨⟨hsame, _⟩, _⟩ := (Artifact.decode_eq_ok_iff hraw _ _).mp hdecode
      exact absurd hsame (Stamp.script?_ne_interactive hstamp)
  · exact absurd hdecode (hunread unit)

namespace UnitCache

/-- What the cache finds is a whole entry that carries the stamp and the very source. -/
theorem exists_of_lookup_eq_some
    {cache : UnitCache ω} {source : String} {stamp : Stamp} {world : ω}
    {unit : CompiledUnit} (hfound : cache.lookup source stamp world = some unit) :
    unit.source = source ∧
      ∃ raw, cache.store.load (Key.ofSource cache.digest source) world = .ok (some raw) ∧
        Artifact.decode cache.digest raw stamp = .ok unit := by
  unfold lookup at hfound
  cases hload : cache.store.load (Key.ofSource cache.digest source) world with
  | error e => simp [hload] at hfound
  | ok loaded =>
    cases loaded with
    | none => simp [hload] at hfound
    | some raw =>
      cases hdecode : Artifact.decode cache.digest raw stamp with
      | error e => simp [hload, hdecode] at hfound
      | ok found =>
        have hsource : found.source = source ∧ found = unit := by
          simpa [hload, hdecode] using hfound
        rw [← hsource.2]
        exact ⟨hsource.1, raw, rfl, hdecode⟩

/-- What the cache finds for typed input is an answer to typed input, for the very
source if units carry their source. -/
theorem lookup_sound
    {cache : UnitCache ω} {compiler : String} {answers : Answers} {good : ω → Prop}
    (hkeeps : cache.store.Keeps good (Sound cache.digest compiler answers))
    {world : ω} (hgood : good world) {source : String} {unit : CompiledUnit}
    (hfound : cache.lookup source (.interactive compiler) world = some unit) :
    unit.source = source ∧ ∃ origin, answers origin .single stdinName = .ok unit := by
  obtain ⟨hsource, raw, hload, hdecode⟩ := exists_of_lookup_eq_some hfound
  exact ⟨hsource, (hkeeps.load_sound hgood hload).answer hdecode⟩

theorem insert_keeps
    {cache : UnitCache ω} {good : ω → Prop} {sound : Bytes → Prop}
    (hkeeps : cache.store.Keeps good sound) {world : ω} (hgood : good world)
    {unit : CompiledUnit} {stamp : Stamp}
    (hsound : ∀ raw, Artifact.encode cache.digest unit stamp = .ok raw → sound raw)
    (source : String) : good (cache.insert source unit stamp world).2 := by
  unfold insert
  cases hraw : Artifact.encode cache.digest unit stamp with
  | ok raw => exact hkeeps.save_good hgood (hsound raw hraw)
  | error e => exact hgood

/-- Keeping what was written for an answer leaves every entry sound, also where the
store refuses it. -/
theorem insert_good
    {cache : UnitCache ω} {compiler : String} {answers : Answers} {good : ω → Prop}
    (hkeeps : cache.store.Keeps good (Sound cache.digest compiler answers))
    {world : ω} (hgood : good world) {unit : CompiledUnit} {stamp : Stamp}
    (hwritten : ∀ raw, Artifact.encode cache.digest unit stamp = .ok raw →
      Written cache.digest compiler answers raw) (source : String) :
    good (cache.insert source unit stamp world).2 :=
  insert_keeps hkeeps hgood (fun raw hraw => Or.inl (hwritten raw hraw)) source

end UnitCache

/-! ## Stores that keep their entries sound -/

namespace Store

theorem memory_save_ok (key : Key) (bytes : Bytes) (entries : Entries) :
    (memory.save key bytes entries).1 = .ok () := by
  unfold memory
  dsimp only
  split
  · rfl
  · rfl

theorem memory_save_find? (key other : Key) (bytes : Bytes) (entries : Entries) :
    (memory.save key bytes entries).2.find? other =
      if other = key then some bytes else entries.find? other := by
  unfold memory
  dsimp only
  split
  · rename_i hsame
    split
    · rename_i hkey
      rw [hkey, hsame]
    · rfl
  · exact Bindings.find?_insert entries key other bytes

theorem memory_keeps (sound : Bytes → Prop) :
    memory.Keeps (fun entries => ∀ key raw, entries.find? key = some raw → sound raw)
      sound := by
  constructor
  · intro key entries raw hgood hload
    exact hgood key raw (Except.ok.inj hload)
  · intro key entries bytes hgood hbytes other raw hfound
    rw [memory_save_find?] at hfound
    split at hfound
    · cases hfound
      exact hbytes
    · exact hgood other raw hfound

/-- A part of a world keeps its entries sound as it does on its own. -/
theorem Keeps.within
    {store : Store σ} {good : σ → Prop} {sound : Bytes → Prop}
    (hkeeps : store.Keeps good sound) {get : ω → σ} {set : ω → σ → ω}
    (hset : ∀ world part, get (set world part) = part) :
    (store.within get set).Keeps (fun world => good (get world)) sound := by
  constructor
  · intro key world raw hgood hload
    exact hkeeps.load_sound hgood hload
  · intro key world bytes hgood hbytes
    have hsaved : good (store.save key bytes (get world)).2 :=
      hkeeps.save_good hgood hbytes
    simpa only [Store.within, hset] using hsaved

end Store
end Cache
end LineShell
