import LineShell.Binary
import LineShell.Proofs.Text.Utf8
import Mathlib.Tactic

/-!
# Spellings in the binary format

A reader and a writer fit together when the bytes that the writer makes of a value
are, for the reader, a spelling of that value: it takes exactly those bytes,
whatever follows them, and a nominal size from the budget; it fails if the budget
is smaller than that; and it fails on every proper beginning of the bytes.

The rules below put spellings together in the way in which readers are put
together, so the spelling of a record follows from those of its fields.
-/

namespace LineShell
namespace Binary
namespace Reader

open Text

variable {α β : Type}

/-- Bytes are a spelling of a value, for a reader that takes a nominal size for it
out of a budget within the limit. -/
structure Spells (read : Reader α) (a : α) (bytes : Bytes) (size : Nat) : Prop where
  fits : ∀ rest budget, size ≤ budget → budget ≤ limit →
    read.run ⟨bytes ++ rest, budget⟩ = .ok (a, ⟨rest, budget - size⟩)
  exceeds : ∀ rest budget, budget < size → budget ≤ limit →
    ∃ e, read.run ⟨bytes ++ rest, budget⟩ = .error e
  cut : ∀ front back budget, front ++ back = bytes → back ≠ [] → budget ≤ limit →
    ∃ e, read.run ⟨front, budget⟩ = .error e

/-! ## Putting spellings together -/

theorem run_bind_of_ok
    {read : Reader α} {next : α → Reader β} {input after : Input} {a : α}
    (hread : read.run input = .ok (a, after)) :
    (read >>= next).run input = (next a).run after := by
  rw [StateT.run_bind, hread]
  rfl

theorem run_bind_of_error
    {read : Reader α} {next : α → Reader β} {input : Input} {e : Error}
    (hread : read.run input = .error e) :
    (read >>= next).run input = .error e := by
  rw [StateT.run_bind, hread]
  rfl

theorem spells_pure (a : α) : Spells (pure a : Reader α) a [] 0 := by
  constructor
  · intro rest budget _ _
    rfl
  · intro rest budget hexceeds _
    omega
  · intro front back budget hcut hback _
    exact absurd (List.append_eq_nil_iff.mp hcut).2 hback

theorem Spells.bind
    {read : Reader α} {next : α → Reader β} {a : α} {b : β} {bytes bytes' : Bytes}
    {size size' : Nat} (hread : Spells read a bytes size)
    (hnext : Spells (next a) b bytes' size') :
    Spells (read >>= next) b (bytes ++ bytes') (size + size') := by
  constructor
  · intro rest budget hsize hlimit
    rw [List.append_assoc, run_bind_of_ok (hread.fits _ _ (by omega) hlimit),
      hnext.fits _ _ (by omega) (by omega), Nat.sub_sub]
  · intro rest budget hexceeds hlimit
    rw [List.append_assoc]
    by_cases hfirst : budget < size
    · obtain ⟨e, he⟩ := hread.exceeds (bytes' ++ rest) budget hfirst hlimit
      exact ⟨e, run_bind_of_error he⟩
    · rw [run_bind_of_ok (hread.fits _ _ (by omega) hlimit)]
      exact hnext.exceeds rest _ (by omega) (by omega)
  · intro front back budget hcut hback hlimit
    -- The bytes end either inside the first spelling or after the whole of it.
    have hwhole : ∀ front', front = bytes ++ front' → front' ++ back = bytes' →
        ∃ e, (read >>= next).run ⟨front, budget⟩ = .error e := by
      intro front' hfront hrest
      subst hfront
      by_cases hfirst : budget < size
      · obtain ⟨e, he⟩ := hread.exceeds front' budget hfirst hlimit
        exact ⟨e, run_bind_of_error he⟩
      · rw [run_bind_of_ok (hread.fits _ _ (by omega) hlimit)]
        exact hnext.cut front' back _ hrest hback (by omega)
    rcases List.append_eq_append_iff.mp hcut with
      ⟨missing, hbytes, hmissing⟩ | ⟨front', hfront, hrest⟩
    · cases missing with
      | nil =>
        rw [List.append_nil] at hbytes
        exact hwhole [] (by rw [hbytes, List.append_nil]) hmissing
      | cons m ms =>
        obtain ⟨e, he⟩ := hread.cut front (m :: ms) budget hbytes.symm (by simp) hlimit
        exact ⟨e, run_bind_of_error he⟩
    · exact hwhole front' hfront hrest.symm

theorem Spells.cast
    {read : Reader α} {a : α} {bytes bytes' : Bytes} {size size' : Nat}
    (hread : Spells read a bytes size) (hbytes : bytes = bytes') (hsize : size = size') :
    Spells read a bytes' size' := by
  subst hbytes
  subst hsize
  exact hread

theorem Spells.map
    {read : Reader α} {a : α} {bytes : Bytes} {size : Nat}
    (hread : Spells read a bytes size) (f : α → β) :
    Spells (f <$> read) (f a) bytes size := by
  rw [map_eq_pure_bind]
  exact (hread.bind (spells_pure (f a))).cast (List.append_nil _) (Nat.add_zero _)

/-- Reading within the limit gives back what was spelt, or fails if that is larger
than the limit. -/
theorem Spells.decode_eq_ok_iff
    {read : Reader α} {a : α} {bytes : Bytes} {size : Nat}
    (hread : Spells read a bytes size) (rest : Bytes) (found : α) :
    decode read (bytes ++ rest) = .ok found ↔ size ≤ limit ∧ found = a := by
  unfold decode
  by_cases hsize : size ≤ limit
  · rw [hread.fits rest limit hsize (le_refl _)]
    simp [hsize, eq_comm]
  · obtain ⟨e, he⟩ := hread.exceeds rest limit (by omega) (le_refl _)
    rw [he]
    simp [hsize]

theorem exists_back_of_cut
    {front whole : Bytes} (hfront : front <+: whole) (hcut : front ≠ whole) :
    ∃ back, front ++ back = whole ∧ back ≠ [] := by
  obtain ⟨back, hback⟩ := hfront
  refine ⟨back, hback, ?_⟩
  rintro rfl
  rw [List.append_nil] at hback
  exact hcut hback

/-- Reading fails on what is left of a spelling that was cut off. -/
theorem Spells.decode_of_cut
    {read : Reader α} {a : α} {bytes front back : Bytes} {size : Nat}
    (hread : Spells read a bytes size) (hcut : front ++ back = bytes) (hback : back ≠ []) :
    ∃ e, decode read front = .error e := by
  obtain ⟨e, he⟩ := hread.cut front back limit hcut hback (le_refl _)
  exact ⟨e, by rw [decode, he]⟩

/-! ## Bytes and numbers -/

theorem spells_claim (size : Nat) : Spells (claim size) () [] size := by
  constructor
  · intro rest budget hsize _
    simp only [StateT.run, claim, if_pos hsize]
    rfl
  · intro rest budget hexceeds _
    refine ⟨.limitExceeded, ?_⟩
    simp only [StateT.run, claim, if_neg (by omega : ¬ size ≤ budget)]
  · intro front back budget hcut hback _
    exact absurd (List.append_eq_nil_iff.mp hcut).2 hback

theorem Spells.claimed
    {read : Reader α} {a : α} {bytes : Bytes} {size : Nat}
    (hread : Spells read a bytes size) (claimed : Nat) :
    Spells (do claim claimed; read) a bytes (claimed + size) :=
  (spells_claim claimed).bind hread

theorem spells_take (bytes : Bytes) : Spells (take bytes.length) bytes bytes 0 := by
  constructor
  · intro rest budget _ _
    simp only [StateT.run, take, List.take_left, if_true, List.drop_left]
    rfl
  · intro rest budget hexceeds _
    omega
  · intro front back budget hcut hback _
    have hshort : front.length < bytes.length := by
      have hlength := congrArg List.length hcut
      have hpos := List.length_pos_of_ne_nil hback
      rw [List.length_append] at hlength
      omega
    refine ⟨.unexpectedEnd (bytes.length - front.length), ?_⟩
    have htaken : front.take bytes.length = front := List.take_of_length_le (by omega)
    simp only [StateT.run, take, htaken, if_neg (by omega : ¬ front.length = bytes.length)]

theorem spells_byte (b : UInt8) : Spells byte b [b] 0 := by
  constructor
  · intro rest budget _ _
    rfl
  · intro rest budget hexceeds _
    omega
  · intro front back budget hcut hback _
    have hfront : front = [] := by
      rcases List.append_eq_singleton_iff.mp hcut with ⟨hfront, _⟩ | ⟨_, hnil⟩
      · exact hfront
      · exact absurd hnil hback
    subst hfront
    exact ⟨.unexpectedEnd 1, rfl⟩

theorem spells_rawByte (b : UInt8) : Spells rawByte b [b] 1 :=
  (spells_byte b).claimed 1

@[simp] theorem length_littleEndian (width n : Nat) :
    (littleEndian width n).length = width := by
  induction width generalizing n with
  | zero => rfl
  | succ width ih => rw [littleEndian, List.length_cons, ih]

theorem length_varint_le (n : Nat) : (Binary.varint n).length ≤ 17 := by
  unfold Binary.varint
  split_ifs <;> simp

theorem value_littleEndian {width n : Nat} (hn : n < 256 ^ width) :
    value (littleEndian width n) = n := by
  induction width generalizing n with
  | zero =>
    rw [pow_zero] at hn
    have hzero : n = 0 := by omega
    subst hzero
    rfl
  | succ width ih =>
    have hrest : n / 256 < 256 ^ width := by
      rw [pow_succ] at hn
      exact Nat.div_lt_of_lt_mul (by omega)
    have hlow : (UInt8.ofNat (n % 256)).toNat = n % 256 :=
      Utf8.toNat_byte (Nat.mod_lt n (by decide))
    have hvalue : value (littleEndian (width + 1) n) =
        (UInt8.ofNat (n % 256)).toNat + 256 * value (littleEndian width (n / 256)) := rfl
    rw [hvalue, hlow, ih hrest]
    omega

theorem spells_value {width n : Nat} (hn : n < 256 ^ width) :
    Spells (value <$> take width) n (littleEndian width n) 0 := by
  have htake := (spells_take (littleEndian width n)).map value
  rw [length_littleEndian, value_littleEndian hn] at htake
  exact htake

theorem spells_varint
    {bits n : Nat} (hbits : bits = 32 ∨ bits = 64 ∨ bits = 128) (hn : n < 2 ^ bits) :
    Spells (varint bits) n (Binary.varint n) (bits / 8) := by
  suffices hmark : Spells (varint bits) n (Binary.varint n) (bits / 8 + 0) from hmark
  apply Spells.claimed
  have hmarked : ∀ {mark : UInt8} {bytes : Bytes} {next : UInt8 → Reader Nat},
      Spells (next mark) n bytes 0 → Spells (byte >>= next) n (mark :: bytes) 0 := by
    intro mark bytes next hnext
    exact (spells_byte mark).bind hnext
  rw [Binary.varint]
  split
  · rename_i hsmall
    apply hmarked
    rw [Utf8.toNat_byte (by omega), if_pos hsmall]
    exact spells_pure n
  · split
    · rename_i hwidth
      exact hmarked (spells_value (by simpa using hwidth))
    · split
      · rename_i hwidth
        exact hmarked (spells_value (by simpa using hwidth))
      · split
        · rename_i hlarge hwidth
          have hwide : 64 ≤ bits := by
            rcases hbits with h | h | h
            · subst h
              exact absurd hn hlarge
            · omega
            · omega
          apply hmarked
          have hmark : ((253 : UInt8) = 253 ∧ 64 ≤ bits) := ⟨rfl, hwide⟩
          simp only [hmark]
          exact spells_value (by simpa using hwidth)
        · rename_i hlarge
          have hwide : bits = 128 := by
            rcases hbits with h | h | h
            · subst h
              exact absurd (lt_trans hn (by decide)) hlarge
            · subst h
              exact absurd hn hlarge
            · exact h
          subst hwide
          exact hmarked (spells_value (lt_of_lt_of_eq hn (by norm_num)))

/-! ## Lengths -/

/-- No reader of a length gets past the mark of a number that is too wide for it,
nor past any beginning of one. -/
theorem varint_of_wide
    {n : Nat} (hwide : 2 ^ 64 ≤ n) {front : Bytes} {rest : Bytes}
    (hfront : front <+: Binary.varint n ++ rest) (budget : Nat) :
    ∃ e, (varint 64).run ⟨front, budget⟩ = .error e := by
  have hbytes : Binary.varint n = 254 :: littleEndian 16 n := by
    rw [Binary.varint, if_neg (by omega), if_neg (by norm_num; omega),
      if_neg (by norm_num; omega), if_neg (by norm_num; omega)]
  have hclaim : (claim (64 / 8)).run ⟨front, budget⟩ =
      if 8 ≤ budget then .ok ((), ⟨front, budget - 8⟩) else .error .limitExceeded := rfl
  by_cases hbudget : 8 ≤ budget
  · rw [if_pos hbudget] at hclaim
    rw [varint, run_bind_of_ok hclaim]
    cases front with
    | nil => exact ⟨.unexpectedEnd 1, rfl⟩
    | cons mark others =>
      rw [hbytes, List.cons_append, List.cons_prefix_cons] at hfront
      rw [hfront.1]
      exact ⟨.wideNumber 254 64, rfl⟩
  · rw [if_neg hbudget] at hclaim
    exact ⟨.limitExceeded, run_bind_of_error hclaim⟩

/-- What begins with its length is spelt by the length and the rest.  A length that
does not fit its width belongs to a value beyond the limit. -/
theorem spells_lengthFirst
    {next : Nat → Reader α} {n : Nat} {a : α} {bytes : Bytes} {size : Nat}
    (hnext : Spells (next n) a bytes size) (hsize : n ≤ size) :
    Spells (varint 64 >>= next) a (Binary.varint n ++ bytes) (8 + size) := by
  by_cases hn : n < 2 ^ 64
  · exact (spells_varint (Or.inr (Or.inl rfl)) hn).bind hnext
  · have hwide : 2 ^ 64 ≤ n := by omega
    have hfails : ∀ front rest budget, front <+: Binary.varint n ++ rest →
        ∃ e, (varint 64 >>= next).run ⟨front, budget⟩ = .error e := by
      intro front rest budget hfront
      obtain ⟨e, he⟩ := varint_of_wide hwide hfront budget
      exact ⟨e, run_bind_of_error he⟩
    constructor
    · intro rest budget hfits hlimit
      unfold limit at hlimit
      omega
    · intro rest budget _ _
      rw [List.append_assoc]
      exact hfails _ _ budget (List.prefix_refl _)
    · intro front back budget hcut _ _
      exact hfails front bytes budget ⟨back, hcut⟩

/-! ## Texts, sequences and choices -/

/-- Bytes that are taken and then turned into a value without failing spell it. -/
theorem spells_taken
    {next : Bytes → Reader α} {a : α} {bytes : Bytes} (hnext : next bytes = pure a) :
    Spells (take bytes.length >>= next) a bytes 0 := by
  have hvalue : Spells (next bytes) a [] 0 := by
    rw [hnext]
    exact spells_pure a
  exact ((spells_take bytes).bind hvalue).cast (List.append_nil bytes) (Nat.add_zero 0)

theorem spells_text (s : String) :
    Spells text s (Binary.text s) (8 + (Utf8.encode s).length) := by
  apply spells_lengthFirst _ (le_refl _)
  refine ((spells_taken ?_).claimed (Utf8.encode s).length).cast rfl (Nat.add_zero _)
  rw [Utf8.decode?_encode]

theorem spells_items
    {read : Reader α} {write : α → Bytes} {size : α → Nat} {list : List α}
    (hitems : ∀ a ∈ list, Spells read a (write a) (size a)) :
    Spells (items read list.length) list (list.flatMap write) (list.map size).sum := by
  induction list with
  | nil => exact spells_pure []
  | cons a rest ih =>
    have hrest := ih fun b hb => hitems b (List.mem_cons_of_mem a hb)
    have hcons := hrest.map fun others => a :: others
    rw [map_eq_pure_bind] at hcons
    rw [List.flatMap_cons, List.map_cons, List.sum_cons]
    exact (hitems a List.mem_cons_self).bind hcons

theorem length_le_sum_map
    {size : α → Nat} {list : List α} (hsize : ∀ a ∈ list, 1 ≤ size a) :
    list.length ≤ (list.map size).sum := by
  have hsum := List.card_nsmul_le_sum (list.map size) 1 (by simpa using hsize)
  simpa using hsum

theorem spells_sequence
    {read : Reader α} {write : α → Bytes} {size : α → Nat} {list : List α}
    (hitems : ∀ a ∈ list, Spells read a (write a) (size a))
    (hsize : ∀ a ∈ list, 1 ≤ size a) :
    Spells (sequence read) list (Binary.sequence write list) (8 + (list.map size).sum) :=
  spells_lengthFirst (spells_items hitems) (length_le_sum_map hsize)

theorem spells_none (read : Reader α) (write : α → Bytes) :
    Spells (option read) none (Binary.option write none) 1 := by
  suffices hflag : Spells (option read) none ([0] ++ []) (1 + 0) from hflag
  apply (spells_rawByte 0).bind
  exact spells_pure none

theorem spells_some
    {read : Reader α} {write : α → Bytes} {a : α} {size : Nat}
    (hread : Spells read a (write a) size) :
    Spells (option read) (some a) (Binary.option write (some a)) (1 + size) := by
  apply (spells_rawByte 1).bind
  exact hread.map some

theorem spells_choice {count index : Nat} (hindex : index < count) (hcount : count ≤ 2 ^ 32) :
    Spells (choice count) index (Binary.varint index) 4 := by
  have hvarint : Spells (varint 32) index (Binary.varint index) 4 :=
    spells_varint (Or.inl rfl) (by omega)
  have hchecked : Spells (if index < count then pure index
      else fail (.badChoice index count)) index [] 0 := by
    rw [if_pos hindex]
    exact spells_pure index
  exact (hvarint.bind hchecked).cast (List.append_nil _) rfl

/-! ## Words and signed numbers -/

theorem spells_word32 (w : UInt32) : Spells word32 w (Binary.varint w.toNat) 4 := by
  have hword : Spells (varint 32) w.toNat (Binary.varint w.toNat) 4 :=
    spells_varint (Or.inl rfl) w.toNat_lt
  have hread := hword.map UInt32.ofNat
  rw [UInt32.ofNat_toNat] at hread
  exact hread

theorem unzigzag_zigzag (n : Int) : unzigzag (zigzag n) = n := by
  unfold zigzag unzigzag
  split <;> split <;> omega

theorem spells_int32 (n : Int32) : Spells int32 n (Binary.int32 n) 4 := by
  have hlow := n.le_toInt
  have hhigh := n.toInt_lt
  have hfold : zigzag n.toInt < 2 ^ 32 := by
    unfold zigzag
    split <;> omega
  have hnumber : Spells (varint 32) (zigzag n.toInt) (Binary.varint (zigzag n.toInt)) 4 :=
    spells_varint (Or.inl rfl) hfold
  have hread := hnumber.map fun folded => Int32.ofInt (unzigzag folded)
  rw [unzigzag_zigzag, Int32.ofInt_toInt] at hread
  exact hread

end Reader
end Binary
end LineShell
