import LineShell.Cache.UnitCache
import LineShell.Literal
import LineShell.Value

/-!
# Taking in lines until they form a unit

Lines of input are kept until the text they make together compiles.  Once a line
has shown that more is needed, further lines are only kept, and the next attempt
comes with an empty line.  That attempt also gives up a text that is still
incomplete, unless it ends inside a literal.
-/

namespace LineShell

open Cache

/-- A compiler with a state of its own. -/
structure Compiler (γ : Type) where
  /-- Compiles a source, in a mode and under a file name, for given variables. -/
  compile : String → Mode → String → Context → γ → Except CompileError CompiledUnit × γ
  /-- What identifies the compiler. -/
  fingerprint : String

/-- What became of a source. -/
inductive CompileState where
  | awaiting
  | ready (unit : CompiledUnit)
  | rejected (e : CompileError)
  deriving DecidableEq, Repr

/-- The source that a line led to, and what became of it. -/
structure Pushed where
  source : String
  state : CompileState
  deriving DecidableEq, Repr

namespace Intake

/-- What an intake works with: a compiler, a cache, a change made to sources and the
time of a file's last change. -/
structure Tools (γ ω : Type) where
  compiler : Compiler γ
  cache : UnitCache ω
  transform : String → String
  modified? : String → ω → Option Int

end Intake

/-- The lines that wait, whether more are needed before the next attempt, the
state of the compiler and the world that holds the cache. -/
structure Intake (γ ω : Type) where
  lines : List String
  needMore : Bool
  service : γ
  world : ω

namespace Intake

variable {γ ω : Type}

def idle (service : γ) (world : ω) : Intake γ ω :=
  ⟨[], false, service, world⟩

def isAccumulating (intake : Intake γ ω) : Bool :=
  !intake.lines.isEmpty

def text (intake : Intake γ ω) : String :=
  String.join intake.lines

def reset (intake : Intake γ ω) : Intake γ ω :=
  { intake with lines := [], needMore := false }

def withLineEnd (source : String) : String :=
  if source.toList.getLast? = some '\n' then source else source.push '\n'

def endsBlank (source : String) : Bool :=
  match source.toList.reverse with
  | ['\n'] => true
  | '\n' :: '\n' :: _ => true
  | _ => false

/-- Keeps a unit in the cache; a cache that refuses it does no harm. -/
def keep (tools : Tools γ ω) (source : String) (unit : CompiledUnit) (stamp : Stamp)
    (intake : Intake γ ω) : Intake γ ω :=
  { intake with world := (tools.cache.insert source unit stamp intake.world).2 }

/-- Compiles a source and settles what becomes of the lines that wait. -/
def compileFresh (tools : Tools γ ω) (source : String) (ctx : Context)
    (intake : Intake γ ω) : CompileState × Intake γ ω :=
  let (result, service) :=
    tools.compiler.compile source .single stdinName ctx intake.service
  let intake := { intake with service := service }
  match result with
  | .ok unit =>
    let intake :=
      if tools.cache.policy.allows .single then
        intake.keep tools source unit (.interactive tools.compiler.fingerprint)
      else intake
    (.ready unit, intake.reset)
  | .error e =>
    if e.isIncomplete then
      if endsBlank source && !Literal.endsInside source then (.rejected e, intake.reset)
      else (.awaiting, { intake with needMore := true })
    else (.rejected e, intake.reset)

def cached? (tools : Tools γ ω) (source : String) (intake : Intake γ ω) :
    Option CompiledUnit :=
  if tools.cache.policy.allows .single then
    tools.cache.lookup source (.interactive tools.compiler.fingerprint) intake.world
  else none

/-- Compiles a source as typed input, through the cache where it is used. -/
def compile (tools : Tools γ ω) (source : String) (ctx : Context) (intake : Intake γ ω) :
    CompileState × Intake γ ω :=
  match intake.cached? tools source with
  | some unit => (.ready unit, intake.reset)
  | none => intake.compileFresh tools source ctx

def push (tools : Tools γ ω) (line : String) (ctx : Context) (intake : Intake γ ω) :
    Pushed × Intake γ ω :=
  let intake := { intake with lines := intake.lines ++ [withLineEnd line] }
  if intake.needMore then (⟨intake.text, .awaiting⟩, intake)
  else
    let source := tools.transform intake.text
    let (state, intake) := intake.compile tools source ctx
    (⟨source, state⟩, intake)

/-- Takes in an empty line, which makes an attempt. -/
def emptyLine (tools : Tools γ ω) (ctx : Context) (intake : Intake γ ω) :
    Pushed × Intake γ ω :=
  { intake with needMore := false }.push tools "\n" ctx

/-- The stamp of a script, where the cache is used for scripts. -/
def scriptStamp? (tools : Tools γ ω) (path : String) (intake : Intake γ ω) :
    Option Stamp :=
  if tools.cache.policy.allows .exec then
    Stamp.script? tools.compiler.fingerprint (tools.modified? path intake.world)
  else none

/-- Compiles a script, apart from the lines that wait.  Its entry in the cache
holds only for the time of the file's last change. -/
def compileFile (tools : Tools γ ω) (path text : String) (ctx : Context)
    (intake : Intake γ ω) : Except CompileError CompiledUnit × Intake γ ω :=
  let source := withLineEnd text
  let stamp? := intake.scriptStamp? tools path
  match stamp?.bind fun stamp => tools.cache.lookup source stamp intake.world with
  | some unit => (.ok unit, intake)
  | none =>
    let (result, service) := tools.compiler.compile source .exec path ctx intake.service
    let intake := { intake with service := service }
    match result, stamp? with
    | .ok unit, some stamp => (.ok unit, intake.keep tools source unit stamp)
    | result, _ => (result, intake)

def cacheSize (tools : Tools γ ω) (intake : Intake γ ω) : Nat :=
  tools.cache.size intake.world

end Intake
end LineShell
