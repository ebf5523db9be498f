import LineShell.Proofs.Cache.Entries

/-!
# A cache in memory is a map of stamped units

Units are filed under the digest of a source, which other sources may share, and with a
stamp.  Of the filings under a key only the last one counts.  A lookup is answered with
its unit if it carries the stamp and the source that are asked for, and with nothing
otherwise; so a filing hides all those before it that share its key, even if it is of no
use itself.  The bytes that are kept play no part in this but for the limit within which
they are read back.
-/

namespace LineShell
namespace Cache

variable {ω : Type}

/-- A unit with the source that it is filed for and its stamp. -/
structure Filing where
  source : String
  unit : CompiledUnit
  stamp : Stamp

namespace Filing

def key (digest : DigestFunction) (filing : Filing) : Key :=
  Key.ofSource digest filing.source

/-- The header and the unit of the artifact can be read back. -/
def Fits (digest : DigestFunction) (filing : Filing) : Prop :=
  (Artifact.headerOf digest filing.unit filing.stamp).size ≤ Binary.limit ∧
    Artifact.unitSize filing.unit ≤ Binary.limit

def raw? (digest : DigestFunction) (filing : Filing) : Option Bytes :=
  (Artifact.encode digest filing.unit filing.stamp).toOption

/-- The last filing under a key, in a list that has the newest one first. -/
def last? (digest : DigestFunction) (key : Key) (filed : List Filing) : Option Filing :=
  filed.find? fun filing => filing.key digest = key

/-- The keys under which there are filings. -/
def keys (digest : DigestFunction) (filed : List Filing) : Finset Key :=
  (filed.map (key digest)).toFinset

end Filing

namespace UnitCache

/-! ## Calls -/

inductive Call where
  | insert (filing : Filing)
  | lookup (source : String) (stamp : Stamp)
  | size
  | clear

def Call.perform (cache : UnitCache ω) (world : ω) : Call → ω
  | insert filing => (cache.insert filing.source filing.unit filing.stamp world).2
  | lookup .. | size => world
  | clear => (cache.clear world).2

def after (cache : UnitCache ω) (calls : List Call) (world : ω) : ω :=
  calls.foldl (Call.perform cache) world

def Call.file (filed : List Filing) : Call → List Filing
  | insert filing => filing :: filed
  | lookup .. | size => filed
  | clear => []

/-- What was filed since the cache was last cleared, the newest filing first. -/
def filed (calls : List Call) : List Filing :=
  calls.foldl Call.file []

end UnitCache

/-! ## What the entries say of the filings -/

open UnitCache

variable {digest : DigestFunction}

theorem Filing.Fits.exists_raw {filing : Filing} (hfits : filing.Fits digest) :
    ∃ raw, Artifact.encode digest filing.unit filing.stamp = .ok raw ∧
      filing.raw? digest = some raw := by
  obtain ⟨raw, hraw⟩ := Artifact.encode_of_size_le hfits.1
  refine ⟨raw, hraw, ?_⟩
  rw [Filing.raw?, hraw]
  rfl

/-- Under each key stand the bytes of the last filing, and all filings can be read
back. -/
structure Files (digest : DigestFunction) (entries : Entries) (filed : List Filing) :
    Prop where
  find?_eq : ∀ key, entries.find? key = (Filing.last? digest key filed).bind (Filing.raw? digest)
  fits : ∀ filing ∈ filed, filing.Fits digest

theorem files_nil (digest : DigestFunction) : Files digest Bindings.empty [] := by
  constructor
  · intro key
    rfl
  · intro filing hmem
    cases hmem

theorem Files.insert
    {entries : Entries} {filed : List Filing} (hfiles : Files digest entries filed)
    {filing : Filing} (hfits : filing.Fits digest) (policy : Policy) :
    let stored := UnitCache.insert ⟨policy, digest, .memory⟩ filing.source filing.unit
      filing.stamp entries
    stored.1 = .ok () ∧ Files digest stored.2 (filing :: filed) := by
  obtain ⟨raw, hencode, hraw⟩ := hfits.exists_raw
  intro stored
  have hstored : stored = Store.memory.save (filing.key digest) raw entries := by
    simp only [stored, UnitCache.insert, hencode]
    rfl
  rw [hstored]
  constructor
  · unfold Store.memory
    dsimp only
    split
    · rfl
    · rfl
  · constructor
    · intro key
      rw [Store.memory_save_find?, Filing.last?, List.find?_cons]
      by_cases hkey : key = filing.key digest
      · simp [hkey, hraw]
      · have hne : ¬ filing.key digest = key := Ne.symm hkey
        simp only [if_neg hkey, decide_eq_false hne]
        exact hfiles.find?_eq key
    · intro other hmem
      rcases List.mem_cons.mp hmem with rfl | hold
      · exact hfits
      · exact hfiles.fits other hold

theorem Files.mem_of_last?
    {filed : List Filing} {key : Key} {filing : Filing}
    (hlast : Filing.last? digest key filed = some filing) :
    filing ∈ filed ∧ filing.key digest = key := by
  have hkey := List.find?_some hlast
  exact ⟨List.mem_of_find?_eq_some hlast, by simpa using hkey⟩

/-- A lookup reads the last filing under the key of its source. -/
theorem Files.lookup_eq
    {entries : Entries} {filed : List Filing} (hfiles : Files digest entries filed)
    (policy : Policy) (source : String) (stamp : Stamp) :
    UnitCache.lookup ⟨policy, digest, .memory⟩ source stamp entries =
      match Filing.last? digest (Key.ofSource digest source) filed with
      | some filing =>
        if filing.stamp = stamp ∧ filing.unit.source = source then some filing.unit else none
      | none => none := by
  have hload : Store.memory.load (Key.ofSource digest source) entries =
      .ok (entries.find? (Key.ofSource digest source)) := rfl
  unfold UnitCache.lookup
  rw [hload, hfiles.find?_eq]
  cases hlast : Filing.last? digest (Key.ofSource digest source) filed with
  | none => rfl
  | some filing =>
    have hfits := hfiles.fits filing (Files.mem_of_last? hlast).1
    obtain ⟨raw, hencode, hraw⟩ := hfits.exists_raw
    rw [Option.bind_some, hraw]
    by_cases hstamp : filing.stamp = stamp
    · have hdecode : Artifact.decode digest raw stamp = .ok filing.unit :=
        (Artifact.decode_eq_ok_iff hencode stamp filing.unit).mpr ⟨⟨hstamp, rfl⟩, hfits⟩
      simp only [hdecode, hstamp, true_and]
    · have hdecode := Artifact.decode_of_stamp_ne hencode hstamp hfits.1
      simp only [hdecode, hstamp, false_and, if_false]

theorem Files.keys_eq
    {entries : Entries} {filed : List Filing} (hfiles : Files digest entries filed) :
    entries.keys.toFinset = Filing.keys digest filed := by
  ext key
  rw [List.mem_toFinset, ← Bindings.isSome_find?_iff, hfiles.find?_eq, Filing.keys,
    List.mem_toFinset, List.mem_map]
  constructor
  · intro hsome
    cases hlast : Filing.last? digest key filed with
    | none => simp [hlast] at hsome
    | some filing => exact ⟨filing, Files.mem_of_last? hlast⟩
  · rintro ⟨filing, hmem, hkey⟩
    have hlast : (Filing.last? digest key filed).isSome := by
      rw [Filing.last?, List.find?_isSome]
      exact ⟨filing, hmem, by simpa using hkey⟩
    obtain ⟨last, hlast⟩ := Option.isSome_iff_exists.mp hlast
    obtain ⟨raw, -, hraw⟩ := (hfiles.fits last (Files.mem_of_last? hlast).1).exists_raw
    rw [hlast, Option.bind_some, hraw]
    rfl

/-- There are as many entries as keys, for no key has two of them. -/
theorem Files.size_eq
    {entries : Entries} {filed : List Filing} (hfiles : Files digest entries filed) :
    entries.size = (Filing.keys digest filed).card := by
  have hnodup : entries.keys.Nodup := entries.nodup
  rw [← hfiles.keys_eq, List.toFinset_card_of_nodup hnodup]
  exact (List.length_map _).symm

theorem Files.perform
    {entries : Entries} {filed : List Filing} (hfiles : Files digest entries filed)
    (policy : Policy) {call : Call} (hfits : ∀ filing, call = .insert filing → filing.Fits digest) :
    Files digest (call.perform ⟨policy, digest, .memory⟩ entries) (call.file filed) := by
  cases call with
  | insert filing => exact (hfiles.insert (hfits filing rfl) policy).2
  | lookup source stamp => exact hfiles
  | size => exact hfiles
  | clear => exact files_nil digest

theorem Files.after
    {entries : Entries} {filed : List Filing} (hfiles : Files digest entries filed)
    (policy : Policy) {calls : List Call}
    (hfits : ∀ filing, .insert filing ∈ calls → filing.Fits digest) :
    Files digest (UnitCache.after ⟨policy, digest, .memory⟩ calls entries)
      (calls.foldl Call.file filed) := by
  induction calls generalizing entries filed with
  | nil => exact hfiles
  | cons call rest ih =>
    have hnext := hfiles.perform policy fun filing hcall =>
      hfits filing (hcall ▸ List.mem_cons_self)
    exact ih hnext fun filing hmem => hfits filing (List.mem_cons_of_mem call hmem)

namespace UnitCache

/-- A cache in memory, whatever it was used for since it was empty, says this of what was
filed since it was last cleared.  A lookup finds the unit that was filed last under the
key of the source, if its stamp is the one that is asked for and its source the very
source, and nothing otherwise.  There are as many entries as keys, and clearing counts
them and leaves nothing.  No lookup changes anything, and a filing that fits is taken. -/
theorem memory_is_stamped_map
    (policy : Policy) (digest : DigestFunction) {calls : List Call}
    (hfits : ∀ filing, .insert filing ∈ calls → filing.Fits digest) :
    let cache : UnitCache Entries := ⟨policy, digest, .memory⟩
    let entries := cache.after calls .empty
    (∀ source stamp,
      cache.lookup source stamp entries =
        match Filing.last? digest (Key.ofSource digest source) (filed calls) with
        | some filing =>
          if filing.stamp = stamp ∧ filing.unit.source = source then some filing.unit else none
        | none => none) ∧
      cache.size entries = (Filing.keys digest (filed calls)).card ∧
      cache.clear entries = (.ok (Filing.keys digest (filed calls)).card, .empty) ∧
      (∀ source stamp, Call.perform cache entries (.lookup source stamp) = entries) ∧
      ∀ filing : Filing, filing.Fits digest →
        (cache.insert filing.source filing.unit filing.stamp entries).1 = .ok () := by
  intro cache entries
  have hfiles : Files digest entries (filed calls) := (files_nil digest).after policy hfits
  refine ⟨hfiles.lookup_eq policy, hfiles.size_eq, ?_, fun source stamp => rfl, ?_⟩
  · rw [← hfiles.size_eq]
    rfl
  · intro filing hfiling
    exact (hfiles.insert hfiling policy).1

/-- Where all sources share one key, the unit that is filed last hides the others and is
found for its own source alone. -/
theorem last_filing_hides_others :
    let digest : DigestFunction := fun _ => 0
    let first : Filing :=
      ⟨"echo é\n", ⟨"echo é\n", .single, "<stdin>", [1, 0]⟩, ⟨"v1"⟩⟩
    let second : Filing := ⟨"true\n", ⟨"true\n", .exec, "init", [1, 4]⟩, ⟨"v2"⟩⟩
    let calls : List Call :=
      [.insert second, .clear, .insert first, .lookup first.source ⟨"v1"⟩, .insert second]
    let cache : UnitCache Entries := ⟨.all, digest, .memory⟩
    let entries := cache.after calls .empty
    (∀ filing, .insert filing ∈ calls → filing.Fits digest) ∧
      cache.lookup second.source ⟨"v2"⟩ entries = some second.unit ∧
      cache.lookup second.source ⟨"v1"⟩ entries = none ∧
      cache.lookup first.source ⟨"v1"⟩ entries = none ∧
      cache.size entries = 1 ∧
      cache.clear entries = (.ok 1, .empty) := by
  intro digest first second calls cache entries
  have hfits : ∀ filing, .insert filing ∈ calls → filing.Fits digest := by
    have hfirst : first.Fits digest := by
      unfold Filing.Fits
      decide +kernel
    have hsecond : second.Fits digest := by
      unfold Filing.Fits
      decide +kernel
    intro filing hmem
    obtain rfl | rfl | rfl : filing = second ∨ filing = first ∨ filing = second := by
      simpa [calls] using hmem
    · exact hsecond
    · exact hfirst
    · exact hsecond
  obtain ⟨hlookup, hsize, hclear, -, -⟩ := memory_is_stamped_map .all digest hfits
  exact ⟨hfits, hlookup second.source ⟨"v2"⟩, hlookup second.source ⟨"v1"⟩,
    hlookup first.source ⟨"v1"⟩, hsize, hclear⟩

end UnitCache
end Cache
end LineShell
