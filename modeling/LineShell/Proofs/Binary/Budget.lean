import LineShell.Proofs.Binary.Spelling

/-!
# What reading takes from the budget

A value has more spellings than the one that is written: a number may come in a wider
form than it needs, and bytes may follow.  Yet every spelling takes the same nominal
size from the budget.  So a value that was read from any bytes within the limit can be
written and read again.
-/

namespace LineShell
namespace Binary
namespace Reader

open Text

variable {α β : Type}

/-- For each value that a reader gives, a size that was paid before and what the reader
takes from the budget make up the size of the value. -/
def Takes (paid : Nat) (read : Reader α) (size : α → Nat) : Prop :=
  ∀ input a after, read.run input = .ok (a, after) →
    after.budget + size a = input.budget + paid

theorem exists_of_run_bind_eq_ok
    {read : Reader α} {next : α → Reader β} {input after : Input} {b : β}
    (hrun : (read >>= next).run input = .ok (b, after)) :
    ∃ a mid, read.run input = .ok (a, mid) ∧ (next a).run mid = .ok (b, after) := by
  cases hread : read.run input with
  | error e =>
    rw [run_bind_of_error hread] at hrun
    cases hrun
  | ok found =>
    obtain ⟨a, mid⟩ := found
    rw [run_bind_of_ok hread] at hrun
    exact ⟨a, mid, rfl, hrun⟩

/-! ## Putting readers together -/

theorem takes_pure (size : α → Nat) (a : α) : Takes (size a) (pure a) size := by
  intro input b after hrun
  cases hrun
  rfl

theorem takes_fail (paid : Nat) (size : α → Nat) (e : Error) :
    Takes paid (fail e : Reader α) size := by
  intro input a after hrun
  cases hrun

theorem Takes.bind
    {paid : Nat} {read : Reader α} {next : α → Reader β} {size : α → Nat} {total : β → Nat}
    (hread : Takes paid read size)
    (hnext : ∀ a input mid, read.run input = .ok (a, mid) → Takes (size a) (next a) total) :
    Takes paid (read >>= next) total := by
  intro input b after hrun
  obtain ⟨a, mid, hfirst, hrest⟩ := exists_of_run_bind_eq_ok hrun
  have hpaid := hread input a mid hfirst
  have htaken := hnext a input mid hfirst mid b after hrest
  omega

theorem Takes.map
    {paid : Nat} {read : Reader α} {size : α → Nat} {total : β → Nat}
    (hread : Takes paid read size) (f : α → β) (hsize : ∀ a, total (f a) = size a) :
    Takes paid (f <$> read) total := by
  rw [map_eq_pure_bind]
  apply hread.bind
  intro a _ _ _
  rw [← hsize a]
  exact takes_pure total (f a)

theorem Takes.prepaid
    {read : Reader α} {size : α → Nat} (hread : Takes 0 read size) (paid : Nat) :
    Takes paid read fun a => paid + size a := by
  intro input a after hrun
  have htaken := hread input a after hrun
  dsimp only
  omega

/-! ## Bytes and numbers -/

theorem takes_claim (size : Nat) : Takes 0 (claim size) fun _ => size := by
  intro input done after hrun
  by_cases hsize : size ≤ input.budget
  · simp only [StateT.run, claim, if_pos hsize] at hrun
    cases hrun
    dsimp only
    omega
  · simp only [StateT.run, claim, if_neg hsize] at hrun
    cases hrun

theorem Takes.claimed
    {read : Reader α} {size : α → Nat} {claimed : Nat} (hread : Takes claimed read size) :
    Takes 0 (do claim claimed; read) size :=
  (takes_claim claimed).bind fun _ _ _ _ => hread

theorem run_take_eq_ok
    {n : Nat} {input after : Input} {bytes : Bytes}
    (hrun : (take n).run input = .ok (bytes, after)) :
    bytes.length = n ∧ after.budget = input.budget := by
  simp only [StateT.run, take] at hrun
  split at hrun
  · rename_i hlength
    cases hrun
    exact ⟨hlength, rfl⟩
  · cases hrun

theorem takes_take (n : Nat) : Takes 0 (take n) fun _ => 0 := by
  intro input bytes after hrun
  exact (run_take_eq_ok hrun).2

theorem takes_byte : Takes 0 byte fun _ => 0 := by
  intro input b after hrun
  obtain ⟨bytes, budget⟩ := input
  cases bytes with
  | nil => cases hrun
  | cons first rest =>
    cases hrun
    rfl

theorem takes_rawByte : Takes 0 rawByte fun _ => 1 :=
  Takes.claimed (takes_byte.prepaid 1)

/-- A number takes the size of its kind, whatever the width of its form. -/
theorem takes_varint (bits : Nat) : Takes 0 (varint bits) fun _ => bits / 8 := by
  have hvalue : ∀ width, Takes (bits / 8) (value <$> take width) fun _ => bits / 8 :=
    fun width => ((takes_take width).prepaid (bits / 8)).map value fun _ => rfl
  apply Takes.claimed
  apply (takes_byte.prepaid (bits / 8)).bind
  intro mark _ _ _
  split_ifs
  · exact takes_pure (fun _ => bits / 8) mark.toNat
  · exact hvalue 2
  · exact hvalue 4
  · exact hvalue 8
  · exact hvalue 16
  · exact takes_fail _ _ _

theorem takes_word32 : Takes 0 word32 fun _ => 4 :=
  (takes_varint 32).map UInt32.ofNat fun _ => rfl

theorem takes_int32 : Takes 0 int32 fun _ => 4 :=
  (takes_varint 32).map (fun n => Int32.ofInt (unzigzag n)) fun _ => rfl

theorem takes_choice (count : Nat) : Takes 0 (choice count) fun _ => 4 := by
  apply (takes_varint 32).bind
  intro index _ _ _
  split_ifs
  · exact takes_pure (fun _ => 4) index
  · exact takes_fail _ _ _

/-! ## Texts, sequences and values that may be missing -/

theorem takes_text : Takes 0 text fun s => 8 + (Utf8.encode s).length := by
  apply (takes_varint 64).bind
  intro length _ _ _
  apply ((takes_claim length).prepaid 8).bind
  intro _ _ _ _
  apply ((takes_take length).prepaid (8 + length)).bind
  intro bytes input mid htake
  have hlength := (run_take_eq_ok htake).1
  cases hdecode : Utf8.decode? bytes with
  | none => exact takes_fail _ _ _
  | some s =>
    have hbytes : bytes = Utf8.encode s := Utf8.decode?_eq_some_iff.mp hdecode
    have hsize := takes_pure (fun s => 8 + (Utf8.encode s).length) s
    rw [← hbytes, hlength] at hsize
    exact hsize

theorem takes_items
    {read : Reader α} {size : α → Nat} (hread : Takes 0 read size) (n : Nat) :
    Takes 0 (items read n) fun list => (list.map size).sum := by
  induction n with
  | zero => exact takes_pure (fun list => (list.map size).sum) []
  | succ n ih =>
    apply hread.bind
    intro item _ _ _
    apply (ih.prepaid (size item)).bind
    intro rest _ _ _
    exact takes_pure (fun list => (list.map size).sum) (item :: rest)

theorem takes_sequence
    {read : Reader α} {size : α → Nat} (hread : Takes 0 read size) :
    Takes 0 (sequence read) fun list => 8 + (list.map size).sum := by
  apply (takes_varint 64).bind
  intro length _ _ _
  exact (takes_items hread length).prepaid 8

theorem takes_option
    {read : Reader α} {size : α → Nat} (hread : Takes 0 read size) :
    Takes 0 (option read) fun found => 1 + (found.map size).getD 0 := by
  apply takes_rawByte.bind
  intro flag _ _ _
  split_ifs
  · exact takes_pure (fun found => 1 + (found.map size).getD 0) none
  · exact (hread.prepaid 1).map some fun _ => rfl
  · exact takes_fail _ _ _

/-- What is read from bytes within the limit is no larger than the limit. -/
theorem Takes.size_le_limit
    {read : Reader α} {size : α → Nat} (hread : Takes 0 read size) {bytes : Bytes} {a : α}
    (hdecode : decode read bytes = .ok a) : size a ≤ limit := by
  unfold decode at hdecode
  cases hrun : read.run ⟨bytes, limit⟩ with
  | error e =>
    rw [hrun] at hdecode
    cases hdecode
  | ok found =>
    obtain ⟨b, after⟩ := found
    rw [hrun] at hdecode
    cases hdecode
    have htaken := hread _ _ _ hrun
    dsimp only at htaken
    omega

/-! ## Readers that read more -/

/-- The wider reader gives every value that the narrower one gives. -/
def Widens (narrow wide : Reader α) : Prop :=
  ∀ input found, narrow.run input = .ok found → wide.run input = .ok found

theorem Widens.refl (read : Reader α) : Widens read read :=
  fun _ _ hrun => hrun

theorem Widens.bind
    {narrow wide : Reader α} {next next' : α → Reader β} (hread : Widens narrow wide)
    (hnext : ∀ a, Widens (next a) (next' a)) : Widens (narrow >>= next) (wide >>= next') := by
  intro input found hrun
  obtain ⟨b, after⟩ := found
  obtain ⟨a, mid, hfirst, hrest⟩ := exists_of_run_bind_eq_ok hrun
  rw [run_bind_of_ok (hread input (a, mid) hfirst)]
  exact hnext a mid (b, after) hrest

theorem Widens.items
    {narrow wide : Reader α} (hread : Widens narrow wide) (n : Nat) :
    Widens (items narrow n) (items wide n) := by
  induction n with
  | zero => exact Widens.refl _
  | succ n ih =>
    apply hread.bind
    intro item
    exact ih.bind fun rest => Widens.refl _

theorem Widens.sequence
    {narrow wide : Reader α} (hread : Widens narrow wide) :
    Widens (sequence narrow) (sequence wide) :=
  (Widens.refl (varint 64)).bind fun n => hread.items n

end Reader
end Binary
end LineShell
