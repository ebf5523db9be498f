import LineShell.Proofs.Output.Capture
import LineShell.Proofs.Session.Calls

/-!
# Tees on a stack

Tees are opened on streams, or on the streams of a tee that is held, so those that are
held form a stack.  The invariant below says how the stack, the tap and the counts hang
together: either no tap is installed and every held tee is closed, or the innermost tee
installed it and is the only one that is not.  What a tee captured and what a stream
shows are then read off the calls alone.
-/

namespace LineShell
namespace Output

open Text

/-! ## Calls -/

/-- Whether a write goes to the streams, or to one of their handles, or to a tee. -/
inductive Route where
  | streams
  | tee
  deriving DecidableEq, Repr

/-- A call on streams with tees, or on the innermost tee that is held. -/
inductive TeeCall where
  | start (settings : TeeSettings)
  | write (route : Route) (stream : Stream) (bytes : Bytes)
  | flush (only : Option Stream)
  | close
  | drop

inductive TeeReply where
  | tee (result : Except TeeError Unit)
  | sink (result : Except WriteFault Unit)
  | done

namespace Streams

/-- What a flush of both sinks answers, or of one alone. -/
def flushOnly (streams : Streams) : Option Stream → Except WriteFault Unit
  | none => streams.flush
  | some stream => (streams.sink stream).flush

/-- The streams after such a flush. -/
def flushedOnly (streams : Streams) : Option Stream → Streams
  | none => streams.flushed
  | some stream => streams.flushedAt stream

end Streams

namespace TeeStack

def ofSinks (stdout stderr : Sink) : TeeStack :=
  ⟨.ofSinks stdout stderr, []⟩

end TeeStack

namespace TeeCall

def perform (stack : TeeStack) : TeeCall → TeeReply × TeeStack
  | start settings =>
    match stack.start settings with
    | .ok next => (.tee (.ok ()), next)
    | .error e => (.tee (.error e), stack)
  | write .streams stream bytes =>
    let (result, next) := stack.write stream bytes
    (.sink result, next)
  | write .tee stream bytes =>
    let (result, streams) := Tee.write stack.streams stream bytes
    (.tee result, { stack with streams := streams })
  | flush only =>
    (.sink (stack.streams.flushOnly only),
      { stack with streams := stack.streams.flushedOnly only })
  | close => (.done, stack.close)
  | drop => (.done, stack.drop)

def ends : TeeCall → Bool
  | close | drop => true
  | start _ | write .. | flush _ => false

/-- The payload of a write that is not empty. -/
def payload? : TeeCall → Option Bytes
  | write _ _ bytes => if bytes = [] then none else some bytes
  | start _ | flush _ | close | drop => none

def install (installed : Option TeeSettings) : TeeCall → Option TeeSettings
  | start settings => some (installed.getD settings)
  | write .. | flush _ => installed
  | close | drop => none

end TeeCall

def TeeStack.after (stack : TeeStack) (calls : List TeeCall) : TeeStack :=
  calls.foldl (fun stack call => (call.perform stack).2) stack

/-- The tee that is installed after calls on streams without one. -/
def installed (calls : List TeeCall) : Option TeeSettings :=
  calls.foldl TeeCall.install none

/-- The payloads of the writes that are not empty, in the order of the calls. -/
def payloads (calls : List TeeCall) : List Bytes :=
  calls.filterMap TeeCall.payload?

theorem TeeStack.after_append_singleton
    (stack : TeeStack) (calls : List TeeCall) (call : TeeCall) :
    stack.after (calls ++ [call]) = (call.perform (stack.after calls)).2 := by
  simp [TeeStack.after]

/-! ## What a call does to the stack -/

/-- By either route a write leaves the held tees alone. -/
theorem TeeCall.perform_write
    (stack : TeeStack) (route : Route) (stream : Stream) (bytes : Bytes) :
    ((write route stream bytes).perform stack).2 =
      { stack with streams := (stack.streams.write stream bytes).2 } := by
  cases route with
  | streams => rfl
  | tee =>
    simp only [perform, Tee.write]
    split
    · rename_i hwrite
      rw [hwrite]
    · rename_i hwrite
      rw [hwrite]

theorem TeeCall.perform_flush (stack : TeeStack) (only : Option Stream) :
    ((flush only).perform stack).2 =
      { stack with streams := stack.streams.flushedOnly only } :=
  rfl

theorem Streams.flushedOnly_frame (streams : Streams) (only : Option Stream) :
    (streams.flushedOnly only).tap = streams.tap ∧
      (streams.flushedOnly only).opened = streams.opened ∧
      (streams.flushedOnly only).closed = streams.closed := by
  cases only with
  | none => exact ⟨streams.flushed_tap, streams.flushed_opened, streams.flushed_closed⟩
  | some stream => cases stream <;> exact ⟨rfl, rfl, rfl⟩

theorem Streams.flushedOnly_sink (streams : Streams) (only : Option Stream) (stream : Stream) :
    (streams.flushedOnly only).sink stream = streams.sink stream ∨
      (streams.flushedOnly only).sink stream = (streams.sink stream).flushed := by
  cases only with
  | none => exact streams.flushed_sink stream
  | some target =>
    rw [flushedOnly, flushedAt, sink_setSink]
    split_ifs with hsame
    · rw [hsame]
      exact Or.inr rfl
    · exact Or.inl rfl

theorem TeeStack.close_of_closed
    {stack : TeeStack} (hclosed : ∀ tee ∈ stack.held, tee.isClosed = true) :
    stack.close = stack := by
  obtain ⟨streams, held⟩ := stack
  cases held with
  | nil => rfl
  | cons tee outer => simp [close, Tee.close, hclosed tee List.mem_cons_self]

theorem TeeStack.drop_of_closed
    {stack : TeeStack} (hclosed : ∀ tee ∈ stack.held, tee.isClosed = true) :
    stack.drop = { stack with held := stack.held.tail } := by
  obtain ⟨streams, held⟩ := stack
  cases held with
  | nil => rfl
  | cons tee outer => simp [drop, Tee.close, hclosed tee List.mem_cons_self]

/-! ## The invariant -/

/-- No tap is installed and all held tees are closed, or the innermost tee installed the
tap and all others are closed. -/
inductive Nested : TeeStack → Option TeeSettings → Prop where
  | idle {streams : Streams} {held : List Tee} :
      streams.tap = none → streams.opened = streams.closed →
      (∀ tee ∈ held, tee.isClosed = true) → Nested ⟨streams, held⟩ none
  | within {streams : Streams} {outer : List Tee} {settings : TeeSettings}
      {writes : List Bytes} :
      streams.tap = some ⟨writes, settings.stdout, settings.stderr⟩ →
      streams.opened = streams.closed + 1 → (∀ tee ∈ outer, tee.isClosed = true) →
      Nested ⟨streams, ⟨settings.encoding, settings.errors, none⟩ :: outer⟩ (some settings)

theorem nested_ofSinks (stdout stderr : Sink) : Nested (.ofSinks stdout stderr) none :=
  .idle rfl rfl (by simp)

variable {stack : TeeStack} {current : Option TeeSettings}

theorem Nested.write
    (hnested : Nested stack current) (stream : Stream) (bytes : Bytes) :
    Nested { stack with streams := (stack.streams.write stream bytes).2 } current := by
  cases hnested with
  | idle htap hcount hclosed =>
    refine .idle ?_ (by simpa using hcount) hclosed
    rw [Streams.write_tap, htap]
    rfl
  | @within streams outer settings writes htap hcount hclosed =>
    have hnext : (streams.write stream bytes).2.tap =
        some ⟨bytes :: writes, settings.stdout, settings.stderr⟩ := by
      rw [Streams.write_tap, htap]
      rfl
    exact .within hnext (by simpa using hcount) hclosed

theorem Nested.flush (hnested : Nested stack current) (only : Option Stream) :
    Nested { stack with streams := stack.streams.flushedOnly only } current := by
  obtain ⟨hsame, hopened, hclosedCount⟩ := stack.streams.flushedOnly_frame only
  cases hnested with
  | idle htap hcount hclosed =>
    refine .idle (hsame.trans htap) ?_ hclosed
    rw [hopened, hclosedCount]
    exact hcount
  | within htap hcount hclosed =>
    refine .within (hsame.trans htap) ?_ hclosed
    rw [hopened, hclosedCount]
    exact hcount

theorem Nested.start
    (hnested : Nested stack current) (settings : TeeSettings) :
    Nested ((TeeCall.start settings).perform stack).2 (some (current.getD settings)) := by
  cases hnested with
  | idle htap hcount hclosed =>
    simp only [TeeCall.perform, TeeStack.start, Tee.start, Streams.isTapped, htap]
    exact .within rfl (congrArg (· + 1) hcount) hclosed
  | within htap hcount hclosed =>
    simp only [TeeCall.perform, TeeStack.start, Tee.start, Streams.isTapped, htap]
    exact .within htap hcount hclosed

theorem Streams.counts_of_uninstall
    {streams : Streams} (hcount : streams.opened = streams.closed + 1) :
    streams.uninstall.flushed.opened = streams.uninstall.flushed.closed := by
  rw [flushed_opened, flushed_closed]
  exact hcount

theorem Nested.close (hnested : Nested stack current) : Nested stack.close none := by
  cases hnested with
  | idle htap hcount hclosed =>
    rw [TeeStack.close_of_closed hclosed]
    exact .idle htap hcount hclosed
  | @within streams outer settings writes htap hcount hclosed =>
    refine .idle streams.uninstall.flushed_tap (Streams.counts_of_uninstall hcount) ?_
    exact List.forall_mem_cons.mpr ⟨rfl, hclosed⟩

theorem Nested.drop (hnested : Nested stack current) : Nested stack.drop none := by
  cases hnested with
  | idle htap hcount hclosed =>
    rw [TeeStack.drop_of_closed hclosed]
    exact .idle htap hcount fun tee htee => hclosed tee (List.mem_of_mem_tail htee)
  | @within streams outer settings writes htap hcount hclosed =>
    exact .idle streams.uninstall.flushed_tap (Streams.counts_of_uninstall hcount) hclosed

theorem Nested.perform (hnested : Nested stack current) (call : TeeCall) :
    Nested (call.perform stack).2 (call.install current) := by
  cases call with
  | start settings => exact hnested.start settings
  | write route stream bytes =>
    rw [TeeCall.perform_write]
    exact hnested.write stream bytes
  | flush only =>
    rw [TeeCall.perform_flush]
    exact hnested.flush only
  | close => exact hnested.close
  | drop => exact hnested.drop

theorem Nested.after (hnested : Nested stack current) (calls : List TeeCall) :
    Nested (stack.after calls) (calls.foldl TeeCall.install current) := by
  induction calls generalizing stack current with
  | nil => exact hnested
  | cons call rest ih => exact ih (hnested.perform call)

/-! ## What the invariant says -/

theorem Nested.isTapped_eq (hnested : Nested stack current) :
    stack.streams.isTapped = current.isSome := by
  cases hnested with
  | idle htap _ _ => simp [Streams.isTapped, htap]
  | within htap _ _ => simp [Streams.isTapped, htap]

theorem Nested.decorations_eq (hnested : Nested stack current) :
    (stack.streams.tap.map fun tap => (tap.stdout, tap.stderr)) =
      current.map fun settings => (settings.stdout, settings.stderr) := by
  cases hnested with
  | idle htap _ _ => rw [htap]; rfl
  | within htap _ _ => rw [htap]; rfl

theorem Nested.opened_eq (hnested : Nested stack current) :
    stack.streams.opened = stack.streams.closed + if current.isSome then 1 else 0 := by
  cases hnested with
  | idle _ hcount _ => exact hcount
  | within _ hcount _ => exact hcount

theorem Nested.tail_closed (hnested : Nested stack current) :
    ∀ tee ∈ stack.held.tail, tee.isClosed = true := by
  cases hnested with
  | idle _ _ hclosed => exact fun tee htee => hclosed tee (List.mem_of_mem_tail htee)
  | within _ _ hclosed => exact hclosed

theorem Nested.eq_none_iff (hnested : Nested stack current) :
    current = none ↔ ∀ tee ∈ stack.held, tee.isClosed = true := by
  cases hnested with
  | idle _ _ hclosed => simpa using hclosed
  | within _ _ _ => simp [Tee.isClosed]

/-- A tee is opened exactly when all that are held are closed, and refused otherwise. -/
theorem Nested.start_ok_iff (hnested : Nested stack current) (settings : TeeSettings) :
    (∃ next, stack.start settings = .ok next) ↔
      ∀ tee ∈ stack.held, tee.isClosed = true := by
  rw [← hnested.eq_none_iff, TeeStack.start, Tee.start, hnested.isTapped_eq]
  cases current <;> simp

theorem TeeStack.drop_held (stack : TeeStack) : stack.drop.held = stack.held.tail := by
  obtain ⟨streams, held⟩ := stack
  cases held <;> rfl

/-- What a call does to the held tees: it opens one inside them while all are closed, closes
the innermost one while that is not closed, lets go of the innermost one, or leaves
them alone. -/
theorem Nested.held_cases (hnested : Nested stack current) (call : TeeCall) :
    let next := (call.perform stack).2
    (∃ settings, call = .start settings ∧ current = none ∧
        next.held = ⟨settings.encoding, settings.errors, none⟩ :: stack.held) ∨
      (∃ settings outer, call = .close ∧ current = some settings ∧
        stack.held = ⟨settings.encoding, settings.errors, none⟩ :: outer ∧
        next.held =
          ⟨settings.encoding, settings.errors, some stack.streams.captured⟩ :: outer) ∨
      (call = .drop ∧ next.held = stack.held.tail) ∨
      (next.held = stack.held ∧ (call.ends = false ∨ current = none)) := by
  intro next
  cases call with
  | start settings =>
    have htapped := hnested.isTapped_eq
    cases current with
    | none =>
      refine Or.inl ⟨settings, rfl, rfl, ?_⟩
      simp only [next, TeeCall.perform, TeeStack.start, Tee.start, htapped]
      rfl
    | some installed =>
      refine Or.inr (Or.inr (Or.inr ⟨?_, Or.inl rfl⟩))
      simp only [next, TeeCall.perform, TeeStack.start, Tee.start, htapped]
      rfl
  | write route stream bytes =>
    refine Or.inr (Or.inr (Or.inr ⟨?_, Or.inl rfl⟩))
    simp only [next, TeeCall.perform_write]
  | flush only =>
    refine Or.inr (Or.inr (Or.inr ⟨?_, Or.inl rfl⟩))
    simp only [next, TeeCall.perform_flush]
  | close =>
    cases hnested with
    | @idle streams held _ _ hclosed =>
      have hsame : (TeeStack.mk streams held).close = ⟨streams, held⟩ :=
        TeeStack.close_of_closed hclosed
      exact Or.inr (Or.inr (Or.inr ⟨congrArg TeeStack.held hsame, Or.inr rfl⟩))
    | within _ _ _ => exact Or.inr (Or.inl ⟨_, _, rfl, rfl, rfl, rfl⟩)
  | drop => exact Or.inr (Or.inr (Or.inl ⟨rfl, stack.drop_held⟩))

/-! ## What a tee captured -/

/-- How a held tee came about: it was opened while all others were closed, nothing ended it
until it was closed, if it was, and it captured the payloads of the calls in between. -/
structure Origin (first : TeeStack) (calls : List TeeCall) (tee : Tee) (outer : List Tee)
    (settings : TeeSettings) (before inside rest : List TeeCall) : Prop where
  calls_eq : calls = before ++ .start settings :: (inside ++ rest)
  encoding_eq : tee.encoding = settings.encoding
  errors_eq : tee.errors = settings.errors
  outer_eq : (first.after before).held = outer
  outer_closed : ∀ other ∈ outer, other.isClosed = true
  inside_open : ∀ call ∈ inside, call.ends = false
  rest_eq : if tee.isClosed then rest.head? = some .close else rest = []
  captured_eq : tee.captured (first.after calls).streams = (payloads inside).flatten

theorem Tee.captured_of_closed
    {tee : Tee} (hclosed : tee.isClosed = true) (streams other : Streams) :
    tee.captured streams = tee.captured other := by
  unfold isClosed at hclosed
  unfold captured
  obtain ⟨bytes, hkept⟩ := Option.isSome_iff_exists.mp hclosed
  rw [hkept]
  rfl

variable {first : TeeStack} {calls before inside rest : List TeeCall} {tee : Tee}
  {outer : List Tee} {settings : TeeSettings}

/-- Whatever is called, a closed tee keeps what it captured. -/
theorem Origin.later
    (horigin : Origin first calls tee outer settings before inside rest)
    (hclosed : tee.isClosed = true) (call : TeeCall) :
    Origin first (calls ++ [call]) tee outer settings before inside (rest ++ [call]) := by
  have hrest := horigin.rest_eq
  rw [if_pos hclosed] at hrest
  constructor
  · rw [horigin.calls_eq]
    simp
  · exact horigin.encoding_eq
  · exact horigin.errors_eq
  · exact horigin.outer_eq
  · exact horigin.outer_closed
  · exact horigin.inside_open
  · rw [if_pos hclosed]
    simp [List.head?_append, hrest]
  · rw [← horigin.captured_eq]
    exact tee.captured_of_closed hclosed _ _

theorem Streams.write_captured
    {streams : Streams} (htapped : streams.isTapped = true) (stream : Stream) (bytes : Bytes) :
    (streams.write stream bytes).2.captured = streams.captured ++ bytes := by
  obtain ⟨tap, htap⟩ := Option.isSome_iff_exists.mp htapped
  have hnext := streams.write_tap stream bytes
  rw [htap] at hnext
  simp [captured, htap, hnext, Tap.captured, Tap.record]

/-- While a tee is installed, a call that does not end it adds its payload to the capture and
leaves the held tees alone. -/
theorem Nested.captured_perform
    (hnested : Nested stack (some settings)) {call : TeeCall} (hends : call.ends = false) :
    (call.perform stack).2.held = stack.held ∧
      (call.perform stack).2.streams.captured =
        stack.streams.captured ++ (payloads [call]).flatten := by
  have htapped : stack.streams.isTapped = true := hnested.isTapped_eq
  cases call with
  | start other =>
    simp [TeeCall.perform, TeeStack.start, Tee.start, htapped, payloads, TeeCall.payload?]
  | write route stream bytes =>
    rw [TeeCall.perform_write, Streams.write_captured htapped]
    by_cases hempty : bytes = [] <;> simp [payloads, TeeCall.payload?, hempty]
  | flush only =>
    rw [TeeCall.perform_flush]
    simp [payloads, TeeCall.payload?, Streams.captured,
      (stack.streams.flushedOnly_frame only).1]
  | close => cases hends
  | drop => cases hends

theorem payloads_append (calls more : List TeeCall) :
    payloads (calls ++ more) = payloads calls ++ payloads more :=
  List.filterMap_append

/-- A call that does not end the installed tee belongs to the span of that tee. -/
theorem Origin.within
    (horigin : Origin first calls tee outer settings before inside rest)
    (hopen : tee.isClosed = false) {current : TeeSettings}
    (hnested : Nested (first.after calls) (some current)) {call : TeeCall}
    (hends : call.ends = false) :
    Origin first (calls ++ [call]) tee outer settings before (inside ++ [call]) rest := by
  have hrest := horigin.rest_eq
  rw [hopen, if_neg Bool.false_ne_true] at hrest
  have hkept : tee.kept = none := by simpa [Tee.isClosed] using hopen
  constructor
  · rw [horigin.calls_eq, hrest]
    simp
  · exact horigin.encoding_eq
  · exact horigin.errors_eq
  · exact horigin.outer_eq
  · exact horigin.outer_closed
  · intro other hother
    rcases List.mem_append.mp hother with hold | hnew
    · exact horigin.inside_open other hold
    · rw [List.mem_singleton.mp hnew]
      exact hends
  · rw [hopen, if_neg Bool.false_ne_true]
    exact hrest
  · have hcaptured := horigin.captured_eq
    simp only [Tee.captured, hkept, Option.getD_none] at hcaptured ⊢
    rw [TeeStack.after_append_singleton, (hnested.captured_perform hends).2, hcaptured,
      payloads_append, List.flatten_append]

/-- A tee that was held already keeps its origin, unless the call ends it. -/
theorem Origin.survives
    (horigin : Origin first calls tee outer settings before inside rest)
    (hnested : Nested (first.after calls) current) (htee : tee ∈ (first.after calls).held)
    {call : TeeCall} (hcall : tee.isClosed = true ∨ call.ends = false) :
    ∃ settings before inside rest,
      Origin first (calls ++ [call]) tee outer settings before inside rest := by
  by_cases hclosed : tee.isClosed = true
  · exact ⟨_, _, _, _, horigin.later hclosed call⟩
  · rw [Bool.not_eq_true] at hclosed
    have hends : call.ends = false := by simpa [hclosed] using hcall
    cases current with
    | none => simp [hnested.eq_none_iff.mp rfl tee htee] at hclosed
    | some settings => exact ⟨_, _, _, _, horigin.within hclosed hnested hends⟩

/-- A tee that is opened has its origin in that call. -/
theorem origin_of_start
    (hnested : Nested (first.after calls) none) (settings : TeeSettings) :
    Origin first (calls ++ [.start settings]) ⟨settings.encoding, settings.errors, none⟩
      (first.after calls).held settings calls [] [] := by
  have huntapped := hnested.isTapped_eq
  constructor
  · rfl
  · rfl
  · rfl
  · rfl
  · exact hnested.eq_none_iff.mp rfl
  · simp
  · rfl
  · rw [TeeStack.after_append_singleton]
    simp only [TeeCall.perform, TeeStack.start, Tee.start, huntapped]
    rfl

/-- A tee that is closed keeps its span and the capture of that moment. -/
theorem Origin.close
    {encoding : Encoding} {errors : ErrorPolicy}
    (horigin : Origin first calls ⟨encoding, errors, none⟩ outer settings before inside
      rest) :
    Origin first (calls ++ [.close])
      ⟨encoding, errors, some (first.after calls).streams.captured⟩ outer settings before
      inside [.close] := by
  have hrest : rest = [] := horigin.rest_eq
  constructor
  · rw [horigin.calls_eq, hrest]
    simp
  · exact horigin.encoding_eq
  · exact horigin.errors_eq
  · exact horigin.outer_eq
  · exact horigin.outer_closed
  · exact horigin.inside_open
  · rfl
  · rw [← horigin.captured_eq]
    rfl

/-- Every held tee has its origin in the calls. -/
theorem exists_origin
    (hfirst : Nested first none) (hnone : first.held = []) (calls : List TeeCall)
    {front : List Tee} (hheld : (first.after calls).held = front ++ tee :: outer) :
    ∃ settings before inside rest,
      Origin first calls tee outer settings before inside rest := by
  induction calls using List.reverseRecOn generalizing front tee outer with
  | nil =>
    rw [show first.after [] = first from rfl, hnone] at hheld
    simp at hheld
  | append_singleton calls call ih =>
    have hnested := hfirst.after calls
    generalize calls.foldl TeeCall.install none = current at hnested
    -- A tee that was there before has an origin by induction.
    have hsurvives : ∀ {front' : List Tee},
        (first.after calls).held = front' ++ tee :: outer →
        tee.isClosed = true ∨ call.ends = false →
        ∃ settings before inside rest,
          Origin first (calls ++ [call]) tee outer settings before inside rest := by
      intro front' hbefore hcall
      obtain ⟨settings, before, inside, rest, horigin⟩ := ih hbefore
      exact horigin.survives hnested (by simp [hbefore]) hcall
    rw [TeeStack.after_append_singleton] at hheld
    rcases hnested.held_cases call with
      ⟨settings, rfl, rfl, hnext⟩ | ⟨settings, others, rfl, rfl, hbefore, hnext⟩ |
        ⟨rfl, hnext⟩ | ⟨hnext, hcall⟩
    · rw [hnext] at hheld
      cases front with
      | nil =>
        obtain ⟨rfl, rfl⟩ := List.cons_eq_cons.mp hheld
        exact ⟨_, _, _, _, origin_of_start hnested settings⟩
      | cons other front => exact hsurvives (List.cons_eq_cons.mp hheld).2 (Or.inr rfl)
    · rw [hnext] at hheld
      have hothers := hnested.tail_closed
      rw [hbefore, List.tail_cons] at hothers
      cases front with
      | nil =>
        obtain ⟨rfl, rfl⟩ := List.cons_eq_cons.mp hheld
        rw [← List.nil_append (_ :: others)] at hbefore
        obtain ⟨_, _, _, _, horigin⟩ := ih hbefore
        exact ⟨_, _, _, _, horigin.close⟩
      | cons other front =>
        have htail : others = front ++ tee :: outer := (List.cons_eq_cons.mp hheld).2
        rw [htail, ← List.cons_append] at hbefore
        exact hsurvives hbefore (Or.inl (hothers tee (by simp [htail])))
    · rw [hnext] at hheld
      have hclosed := hnested.tail_closed tee (by simp [hheld])
      cases hbefore : (first.after calls).held with
      | nil => simp [hbefore] at hheld
      | cons other others =>
        rw [hbefore, List.tail_cons] at hheld
        rw [hheld, ← List.cons_append] at hbefore
        exact hsurvives hbefore (Or.inl hclosed)
    · rw [hnext] at hheld
      refine hsurvives hheld (hcall.elim Or.inr fun hnone => Or.inl ?_)
      exact hnested.eq_none_iff.mp hnone tee (by simp [hheld])

/-- A closed tee stays what it is and where it is for as long as it is held, that is, for as
long as more tees are held than there are around it. -/
theorem Nested.closed_stays
    (hnested : Nested stack current) {front : List Tee}
    (hheld : stack.held = front ++ tee :: outer) (hclosed : tee.isClosed = true)
    (calls : List TeeCall)
    (hlength : ∀ count, outer.length < (stack.after (calls.take count)).held.length) :
    ∃ front, (stack.after calls).held = front ++ tee :: outer := by
  induction calls generalizing stack current front with
  | nil => exact ⟨front, hheld⟩
  | cons call rest ih =>
    have hnow : outer.length < (call.perform stack).2.held.length := hlength 1
    have hnext : ∃ front, (call.perform stack).2.held = front ++ tee :: outer := by
      rcases hnested.held_cases call with
        ⟨settings, -, -, hnext⟩ | ⟨settings, others, -, -, hbefore, hnext⟩ |
          ⟨-, hnext⟩ | ⟨hnext, -⟩
      · exact ⟨_ :: front, by rw [hnext, hheld, List.cons_append]⟩
      · rw [hheld] at hbefore
        cases front with
        | nil =>
          rw [(List.cons_eq_cons.mp hbefore).1] at hclosed
          cases hclosed
        | cons other front =>
          exact ⟨_ :: front, by rw [hnext, ← (List.cons_eq_cons.mp hbefore).2]; rfl⟩
      · rw [hheld] at hnext
        cases front with
        | nil =>
          rw [hnext] at hnow
          exact absurd hnow (Nat.lt_irrefl _)
        | cons other front => exact ⟨front, hnext⟩
      · exact ⟨front, hnext.trans hheld⟩
    obtain ⟨front, hnext⟩ := hnext
    exact ih (hnested.perform call) hnext fun count => hlength (count + 1)

/-! ## What the streams show -/

def TeeSettings.decoration (settings : TeeSettings) : Stream → Decoration
  | .stdout => settings.stdout
  | .stderr => settings.stderr

/-- The bytes of a write as a stream shows them: bare, or in the decoration of the tee that
is installed. -/
def worn (current : Option TeeSettings) (stream : Stream) (bytes : Bytes) : Bytes :=
  match current with
  | none => bytes
  | some settings => decorated id (settings.decoration stream) bytes

def TeeCall.shows (current : Option TeeSettings) (stream : Stream) : TeeCall → Bytes
  | .write _ target bytes => if target = stream then worn current stream bytes else []
  | .start _ | .flush _ | .close | .drop => []

/-- What calls show on a stream, from a moment at which a tee may be installed. -/
def shown (stream : Stream) : Option TeeSettings → List TeeCall → Bytes
  | _, [] => []
  | current, call :: rest => call.shows current stream ++ shown stream (call.install current) rest

/-- A sink takes bytes as they are, and all of them. -/
structure Sink.TakesBytes (sink : Sink) : Prop where
  kind_eq : sink.kind = .binary
  accepts : sink.device.TakesAll

theorem Sink.TakesBytes.spells {sink : Sink} (hsink : sink.TakesBytes) : sink.Spells id := by
  refine ⟨?_, hsink.accepts⟩
  intro other hkind bytes
  rw [Sink.writePayload, hkind, hsink.kind_eq]
  rfl

namespace Streams

@[simp] theorem install_sink
    (streams : Streams) (stdout stderr : Decoration) (stream : Stream) :
    (streams.install stdout stderr).sink stream = streams.sink stream := by
  cases stream <;> rfl

@[simp] theorem uninstall_sink (streams : Streams) (stream : Stream) :
    streams.uninstall.sink stream = streams.sink stream := by
  cases stream <;> rfl

end Streams

/-- A write shows on its own stream, and there as the installed tee has it. -/
theorem Nested.write_sink
    (hnested : Nested stack current)
    (hsinks : ∀ stream, (stack.streams.sink stream).Spells id) (target stream : Stream)
    (bytes : Bytes) :
    let next := (stack.streams.write target bytes).2
    (next.sink stream).Spells id ∧
      (next.sink stream).written = (stack.streams.sink stream).written ++
        if target = stream then worn current stream bytes else [] := by
  intro next
  simp only [next, Streams.write_sink]
  by_cases hother : stream = target
  · subst hother
    simp only [if_true]
    cases hnested with
    | idle htap _ _ =>
      obtain ⟨sink, hsink, hspells, hwritten⟩ := (hsinks stream).writePayload bytes
      simp only [htap, hsink]
      exact ⟨hspells, hwritten⟩
    | @within streams outer settings writes htap _ _ =>
      obtain ⟨sink, hsink, hspells, hwritten⟩ :=
        (hsinks stream).writeDecorated rfl (settings.decoration stream) bytes
      have hdecoration : Tap.decoration ⟨writes, settings.stdout, settings.stderr⟩ stream =
          settings.decoration stream := by
        cases stream <;> rfl
      simp only [htap, hdecoration, hsink]
      exact ⟨hspells, hwritten⟩
  · rw [if_neg hother, if_neg (Ne.symm hother), List.append_nil]
    exact ⟨hsinks stream, rfl⟩

/-- Any other call leaves a sink alone or flushes it. -/
theorem TeeCall.perform_sink
    (stack : TeeStack) {call : TeeCall}
    (hcall : ∀ route target bytes, call ≠ .write route target bytes) (stream : Stream) :
    (call.perform stack).2.streams.sink stream = stack.streams.sink stream ∨
      (call.perform stack).2.streams.sink stream = (stack.streams.sink stream).flushed := by
  have hclose : ∀ tee : Tee,
      (tee.close stack.streams).2.sink stream = stack.streams.sink stream ∨
        (tee.close stack.streams).2.sink stream = (stack.streams.sink stream).flushed := by
    intro tee
    unfold Tee.close
    split
    · exact Or.inl rfl
    · rw [← stack.streams.uninstall_sink stream]
      exact stack.streams.uninstall.flushed_sink stream
  cases call with
  | start settings =>
    cases htapped : stack.streams.isTapped with
    | true => simp [perform, TeeStack.start, Tee.start, htapped]
    | false => simp [perform, TeeStack.start, Tee.start, htapped]
  | write route target bytes => exact absurd rfl (hcall route target bytes)
  | flush only =>
    rw [perform_flush]
    exact stack.streams.flushedOnly_sink only stream
  | close =>
    obtain ⟨streams, held⟩ := stack
    cases held with
    | nil => exact Or.inl rfl
    | cons tee outer => exact hclose tee
  | drop =>
    obtain ⟨streams, held⟩ := stack
    cases held with
    | nil => exact Or.inl rfl
    | cons tee outer => exact hclose tee

theorem Nested.perform_sink
    (hnested : Nested stack current)
    (hsinks : ∀ stream, (stack.streams.sink stream).Spells id) (call : TeeCall)
    (stream : Stream) :
    let next := (call.perform stack).2
    (next.streams.sink stream).Spells id ∧
      (next.streams.sink stream).written =
        (stack.streams.sink stream).written ++ call.shows current stream := by
  intro next
  have hquiet : (∀ route target bytes, call ≠ .write route target bytes) →
      call.shows current stream = [] →
      (next.streams.sink stream).Spells id ∧
        (next.streams.sink stream).written =
          (stack.streams.sink stream).written ++ call.shows current stream := by
    intro hcall hshows
    simp only [next]
    rw [hshows, List.append_nil]
    rcases TeeCall.perform_sink stack hcall stream with hsame | hflushed
    · rw [hsame]
      exact ⟨hsinks stream, rfl⟩
    · rw [hflushed]
      exact ⟨(hsinks stream).of_frame ⟨rfl, rfl⟩, rfl⟩
  cases call with
  | write route target bytes =>
    simp only [next, TeeCall.perform_write]
    exact hnested.write_sink hsinks target stream bytes
  | start settings => exact hquiet (by simp) rfl
  | flush only => exact hquiet (by simp) rfl
  | close => exact hquiet (by simp) rfl
  | drop => exact hquiet (by simp) rfl

theorem Nested.after_sink
    (hnested : Nested stack current)
    (hsinks : ∀ stream, (stack.streams.sink stream).Spells id) (calls : List TeeCall)
    (stream : Stream) :
    ((stack.after calls).streams.sink stream).written =
      (stack.streams.sink stream).written ++ shown stream current calls := by
  induction calls generalizing stack current with
  | nil => exact (List.append_nil _).symm
  | cons call rest ih =>
    have hstep := hnested.perform_sink hsinks call
    have hrest := ih (hnested.perform call) fun stream => (hstep stream).1
    rw [shown, ← List.append_assoc, ← (hstep stream).2]
    exact hrest

end Output
end LineShell
