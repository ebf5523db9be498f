import LineShell.History.Database
import Mathlib.Data.List.DropRight
import Mathlib.Tactic

/-!
# What queries find

The numbers of the rows in a table grow along it, in the order in which records were
added.  So sorting the rows that a query wants by their numbers turns them round, and
sorting those that were taken turns these back: the query finds the last rows that it
wants, in their order.  In memory the same is done with a list that is kept turned round.
A record is found as it was added if its times are numbers and not the negative zero.
-/

namespace LineShell
namespace History

open Text

/-! ## Times that a table keeps -/

/-- A number of the table of records: one that is a number, and not the negative
zero. -/
def IsKept (time : Float) : Prop :=
  time.isNaN = false ∧ time ≠ -0.0

def Record.IsTimed (record : Record) : Prop :=
  IsKept record.start ∧ IsKept record.stop

open Float.Model in
theorem toBitVec_of_unpack_eq_zero
    {bits : BitVec 64} {sign : UnpackedFloat.Sign}
    (hzero : UnpackedFloat.unpack Format.binary64 bits = .zero sign) :
    bits = 0 ∨ bits = 0x8000000000000000 := by
  unfold UnpackedFloat.unpack at hzero
  obtain ⟨-, hspecial⟩ | ⟨-, hnumber⟩ := ite_eq_iff.mp hzero
  · obtain ⟨-, hinfinity⟩ | ⟨-, hnan⟩ := ite_eq_iff.mp hspecial
    · cases hinfinity
    · cases hnan
  obtain ⟨hfirst, hsmall⟩ | ⟨-, hnormal⟩ := ite_eq_iff.mp hnumber
  swap
  · cases hnormal
  obtain ⟨hmantissa, -⟩ | ⟨_, hsubnormal⟩ := dite_eq_iff.mp hsmall
  swap
  · cases hsubnormal
  have hexponent := congrArg BitVec.toNat hfirst
  have hfraction := congrArg BitVec.toNat hmantissa
  simp [UnpackedFloat.unpackExponent, UnpackedFloat.unpackMantissa,
    Nat.shiftRight_eq_div_pow] at hexponent hfraction
  have hbound := bits.isLt
  rcases (by omega : bits.toNat = 0 ∨ bits.toNat = 0x8000000000000000) with hbits | hbits
  · exact Or.inl (BitVec.eq_of_toNat_eq hbits)
  · exact Or.inr (BitVec.eq_of_toNat_eq hbits)

theorem unpack_eq_zero_of_beq {x : Float} (hzero : (x == 0) = true) :
    ∃ sign, x.toModel.unpack = .zero sign := by
  have hunpack : (0 : Float).toModel.unpack = .zero .positive := by rfl
  have hcompare : x.toModel.unpack.compare (0 : Float).toModel.unpack = some .eq :=
    beq_iff_eq.mp hzero
  rw [hunpack] at hcompare
  cases hx : x.toModel.unpack with
  | zero sign => exact ⟨sign, rfl⟩
  | notANumber =>
    rw [hx] at hcompare
    cases hcompare
  | infinity sign =>
    rw [hx] at hcompare
    cases sign <;> cases hcompare
  | finite sign mantissa exponent hpos =>
    rw [hx] at hcompare
    cases sign <;> cases hcompare

/-- Two numbers equal zero. -/
theorem eq_zero_or_of_beq {x : Float} (hzero : (x == 0) = true) : x = 0 ∨ x = -0.0 := by
  obtain ⟨sign, hunpack⟩ := unpack_eq_zero_of_beq hzero
  have hbits := toBitVec_of_unpack_eq_zero hunpack
  have hsame : ∀ y : Float, x.toModel.toBits.toBitVec = y.toModel.toBits.toBitVec → x = y := by
    rintro ⟨⟨⟨bits⟩, hvalid⟩⟩ hequal
    obtain ⟨⟨⟨own⟩, _⟩⟩ := x
    cases hequal
    rfl
  rcases hbits with hpositive | hnegative
  · exact Or.inl (hsame 0 (hpositive.trans (by decide)))
  · exact Or.inr (hsame (-0.0) (hnegative.trans (by decide)))

namespace Database

theorem storedTime_eq {time : Float} (hkept : IsKept time) (column : String) :
    storedTime column time = .ok time := by
  unfold storedTime
  rw [hkept.1, if_neg Bool.false_ne_true]
  split_ifs with hzero
  · rcases eq_zero_or_of_beq hzero with rfl | hnegative
    · rfl
    · exact absurd hnegative hkept.2
  · rfl

theorem storedRecord_eq {record : Record} (htimed : record.IsTimed) :
    storedRecord record = .ok record := by
  unfold storedRecord
  rw [storedTime_eq htimed.1, storedTime_eq htimed.2]
  rfl

end Database

/-! ## Rows in the order of their numbers -/

namespace Table

/-- The numbers of the rows grow, and none is beyond the last one that was given. -/
structure Ordered (table : Table) : Prop where
  growing : table.rows.Pairwise fun row later => row.id < later.id
  bounded : ∀ row ∈ table.rows, row.id ≤ table.lastId

theorem ordered_empty : Ordered .empty := by
  constructor
  · exact List.Pairwise.nil
  · intro row hmem
    cases hmem

theorem Ordered.insert {table : Table} (hordered : table.Ordered) (record : Record) :
    (table.insert record).Ordered := by
  constructor
  · refine List.pairwise_append.mpr ⟨hordered.growing, List.pairwise_singleton _ _, ?_⟩
    intro row hmem later hlater
    rw [List.mem_singleton.mp hlater]
    exact Nat.lt_succ_of_le (hordered.bounded row hmem)
  · intro row hmem
    rcases List.mem_append.mp hmem with hold | hnew
    · exact Nat.le_succ_of_le (hordered.bounded row hold)
    · rw [List.mem_singleton.mp hnew]
      exact Nat.le_refl _

theorem Ordered.clear {table : Table} : table.clear.Ordered := by
  constructor
  · exact List.Pairwise.nil
  · intro row hmem
    cases hmem

/-- Sorting by a number puts the rows in the one order in which that number grows. -/
theorem mergeSort_eq_of_perm
    {le : Row → Row → Bool} {rank : Row → Int}
    (hle : ∀ row later, le row later = true ↔ rank row ≤ rank later)
    {rows sorted : List Row} (hperm : rows.Perm sorted)
    (hsorted : sorted.Pairwise fun row later => rank row < rank later) :
    rows.mergeSort le = sorted := by
  have htrans : ∀ a b c, le a b → le b c → le a c := by
    intro a b c hab hbc
    rw [hle] at hab hbc ⊢
    omega
  have htotal : ∀ a b, (le a b || le b a) = true := by
    intro a b
    rw [Bool.or_eq_true, hle, hle]
    omega
  have hwhole : (rows.mergeSort le).Perm sorted := (List.mergeSort_perm rows le).trans hperm
  have hbefore : (rows.mergeSort le).Pairwise fun row later => le row later :=
    List.pairwise_mergeSort htrans htotal rows
  have hafter : sorted.Pairwise fun row later => le row later :=
    hsorted.imp fun hless => (hle _ _).mpr (Int.le_of_lt hless)
  refine hwhole.eq_of_pairwise ?_ hbefore hafter
  intro row later hrow hlater hthis hthat
  have hnodup : (sorted.map rank).Nodup := List.pairwise_map.mpr (hsorted.imp Int.ne_of_lt)
  have hsame : rank row = rank later :=
    Int.le_antisymm ((hle _ _).mp hthis) ((hle _ _).mp hthat)
  exact List.inj_on_of_nodup_map hnodup (hwhole.mem_iff.mp hrow) hlater hsame

/-- A query takes the last of the rows that it wants, in their order. -/
theorem Ordered.recent_eq {table : Table} (hordered : table.Ordered)
    (needle : Option String) (limit : Nat) :
    table.recent needle limit =
      (table.rows.filter (Row.meets needle)).rtake (min limit limitBound) := by
  have hwanted : (table.rows.filter (Row.meets needle)).Pairwise
      fun row later => row.id < later.id :=
    hordered.growing.sublist List.filter_sublist
  unfold recent
  dsimp only
  generalize table.rows.filter (Row.meets needle) = wanted at hwanted ⊢
  generalize min limit limitBound = taken
  have hgrows : ∀ row later : Row,
      decide (row.id ≤ later.id) = true ↔ (row.id : Int) ≤ later.id := by
    intro row later
    simp
  have hfalls : ∀ row later : Row,
      decide (later.id ≤ row.id) = true ↔ -(row.id : Int) ≤ -(later.id : Int) := by
    intro row later
    simp
  have hdown : (wanted.mergeSort fun row other => other.id ≤ row.id) = wanted.reverse := by
    refine mergeSort_eq_of_perm hfalls wanted.reverse_perm.symm ?_
    refine List.pairwise_reverse.mpr (hwanted.imp ?_)
    intro row later hbefore
    omega
  have hlast : wanted.reverse.take taken = (wanted.rtake taken).reverse := by
    rw [List.rtake_eq_reverse_take_reverse, List.reverse_reverse]
  have hsuffix : wanted.rtake taken <:+ wanted := List.drop_suffix _ _
  rw [hdown, hlast]
  refine mergeSort_eq_of_perm hgrows (wanted.rtake taken).reverse_perm ?_
  refine (hwanted.sublist hsuffix.sublist).imp ?_
  intro row later hbefore
  omega

end Table

/-! ## What a query finds -/

/-- Whether the input of a record holds the text that is looked for, if there is one. -/
def Record.Mentions (needle : Option String) (record : Record) : Prop :=
  ∀ text ∈ needle, text.toList <:+: record.input.toList

instance (needle : Option String) (record : Record) : Decidable (record.Mentions needle) :=
  match needle with
  | none => isTrue fun _ hnone => by cases hnone
  | some text =>
    decidable_of_iff (text.toList <:+: record.input.toList) <| by simp [Record.Mentions]

/-- The records among some, in their order, that mention a text. -/
def mentioning (needle : Option String) (records : List Record) : List Record :=
  records.filter fun record => record.Mentions needle

theorem matches_eq_decide (needle : Option String) (record : Record) :
    record.matches needle = decide (record.Mentions needle) := by
  cases needle with
  | none => simp [Record.matches, Record.Mentions]
  | some text =>
    rw [Bool.eq_iff_iff, Record.matches, occursIn_iff]
    simp [Record.Mentions]

theorem Row.meets_eq_decide (needle : Option String) (row : Row) :
    row.meets needle = decide (row.record.Mentions needle) := by
  cases needle with
  | none => simp [Row.meets, Record.Mentions]
  | some text =>
    rw [Bool.eq_iff_iff, Row.meets, decide_eq_true_eq, placeOf_pos_iff]
    simp [Record.Mentions]

/-- In memory the last of the records that are looked for are found, in their order. -/
theorem newestMatching_reverse (needle : Option String) (limit : Nat) (records : List Record) :
    newestMatching needle limit records.reverse = (mentioning needle records).rtake limit := by
  have hmatches : (Record.matches needle) = fun record => decide (record.Mentions needle) :=
    funext (matches_eq_decide needle)
  rw [newestMatching, hmatches, List.filter_reverse, List.rtake_eq_reverse_take_reverse,
    mentioning]

theorem Table.Ordered.map_record_recent {table : Table} (hordered : table.Ordered)
    (needle : Option String) (limit : Nat) :
    (table.recent needle limit).map Row.record =
      (mentioning needle (table.rows.map Row.record)).rtake (min limit limitBound) := by
  have hmeets : (Row.meets needle) =
      (fun record => decide (Record.Mentions needle record)) ∘ Row.record :=
    funext (Row.meets_eq_decide needle)
  rw [hordered.recent_eq, mentioning, List.filter_map, ← hmeets, List.rtake, List.rtake,
    List.map_drop, List.length_map]

/-- No limit is too large for as many records as can be counted. -/
theorem rtake_min_of_length_le {α : Type} {items : List α} {bound : Nat}
    (hlength : items.length ≤ bound) (limit : Nat) :
    items.rtake (min limit bound) = items.rtake limit := by
  have hdropped : items.length - min limit bound = items.length - limit := by omega
  rw [List.rtake, List.rtake, hdropped]

end History
end LineShell
