import LineShell.Cache.Store

/-!
# The cache of compiled units

The cache files units under the digest of their source.  A unit is found again
only if its entry is whole, carries the stamp that is asked for and was compiled
from the very source; every other state of the store counts as absence.
-/

namespace LineShell
namespace Cache

/-- Which modes of compiling use the cache. -/
structure Policy where
  interactive : Bool
  scripts : Bool
  deriving DecidableEq, Repr

namespace Policy

/-- Scripts are cached and typed input is not. -/
def standard : Policy :=
  ⟨false, true⟩

def off : Policy :=
  ⟨false, false⟩

def all : Policy :=
  ⟨true, true⟩

def allows (policy : Policy) : Mode → Bool
  | .single => policy.interactive
  | .exec => policy.scripts

end Policy

/-- A cache over a store, with the function that files and checks entries. -/
structure UnitCache (ω : Type) where
  policy : Policy
  digest : DigestFunction
  store : Store ω

namespace UnitCache

variable {ω : Type}

/-- The unit that was compiled from a source under a stamp. -/
def lookup (cache : UnitCache ω) (source : String) (stamp : Stamp) (world : ω) :
    Option CompiledUnit :=
  match cache.store.load (Key.ofSource cache.digest source) world with
  | .ok (some raw) =>
    match Artifact.decode cache.digest raw stamp with
    | .ok unit => if unit.source = source then some unit else none
    | .error _ => none
  | _ => none

def insert (cache : UnitCache ω) (source : String) (unit : CompiledUnit) (stamp : Stamp)
    (world : ω) : Except CacheError Unit × ω :=
  match Artifact.encode cache.digest unit stamp with
  | .ok bytes => cache.store.save (Key.ofSource cache.digest source) bytes world
  | .error e => (.error e, world)

def clear (cache : UnitCache ω) (world : ω) : Except CacheError Nat × ω :=
  cache.store.clear world

def size (cache : UnitCache ω) (world : ω) : Nat :=
  cache.store.size world

end UnitCache
end Cache
end LineShell
