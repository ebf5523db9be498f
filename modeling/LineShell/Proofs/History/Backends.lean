import LineShell.Proofs.History.Queries
import LineShell.Proofs.Text.Numeral

/-!
# Two histories that answer alike

A history in memory and one in a database are compared through the list of the records
that were added since they were last cleared.  Each of them answers every call from that
list alone, so they answer alike, but for the size of a file that only one of them has.
A limit above the largest one that a query takes makes no difference to a history that
never holds more records than that.
-/

namespace LineShell
namespace History

open Text

/-! ## Calls -/

inductive Call where
  | init
  | append (record : Record)
  | list (limit : Nat)
  | search (needle : String) (limit : Nat)
  | count
  | clear
  | stats

inductive Answer where
  | done (result : Except StorageError Unit)
  | found (result : Except StorageError (List Record))
  | counted (result : Except StorageError Nat)
  | figures (result : Except StorageError Stats)

/-- An answer without the size of the file that holds the history. -/
def Answer.withoutSize : Answer → Answer
  | figures result => figures (result.map fun stats => { stats with size := none })
  | done result => done result
  | found result => found result
  | counted result => counted result

section

variable {η : Type} (backend : Backend η)

def Call.perform (history : η) : Call → Answer × η
  | init => ((backend.init history).map Answer.done id)
  | append record => ((backend.append record history).map Answer.done id)
  | list limit => (.found (backend.find none limit history), history)
  | search needle limit => (.found (backend.find (some needle) limit history), history)
  | count => (.counted (backend.count history), history)
  | clear => ((backend.clear history).map Answer.counted id)
  | stats => (.figures (backend.stats history), history)

def answers : η → List Call → List Answer
  | _, [] => []
  | history, call :: rest =>
    (call.perform backend history).1 :: answers (call.perform backend history).2 rest

def after (history : η) (calls : List Call) : η :=
  calls.foldl (fun history call => (call.perform backend history).2) history

end

/-! ## The list behind the answers -/

def Call.hold (records : List Record) : Call → List Record
  | append record => records ++ [record]
  | clear => []
  | init | list _ | search .. | count | stats => records

/-- The records that were added since the last clearing, in their order. -/
def held (calls : List Call) : List Record :=
  calls.foldl Call.hold []

/-- What a history of some records answers. -/
def Call.answer (records : List Record) : Call → Answer
  | init | append _ => .done (.ok ())
  | list limit => .found (.ok ((mentioning none records).rtake limit))
  | search needle limit => .found (.ok ((mentioning (some needle) records).rtake limit))
  | count | clear => .counted (.ok records.length)
  | stats =>
    .figures (.ok ⟨records.length, (records.filter Record.failed).length, schemaVersion, none⟩)

theorem Call.perform_memory (records : List Record) (call : Call) :
    call.perform memory records.reverse = (call.answer records, (call.hold records).reverse) := by
  cases call with
  | init => rfl
  | append record =>
    rw [hold, List.reverse_append]
    rfl
  | list limit =>
    rw [answer, ← newestMatching_reverse]
    rfl
  | search needle limit =>
    rw [answer, ← newestMatching_reverse]
    rfl
  | count =>
    rw [answer, ← List.length_reverse]
    rfl
  | clear =>
    rw [answer, ← List.length_reverse]
    rfl
  | stats =>
    have hfailed : (records.filter Record.failed).length =
        (records.reverse.filter Record.failed).length := by
      rw [List.filter_reverse, List.length_reverse]
    rw [answer, hfailed, ← List.length_reverse]
    rfl

/-- A database of the present version, with some records in the order of their
numbers. -/
structure Database.Holds (db : Database) (records : List Record) : Prop where
  schema_eq : db.schema = some (some currentVersion)
  table_eq : ∃ table, db.table = some table ∧ table.Ordered ∧ table.rows.map Row.record = records

namespace Database

variable {db : Database} {records : List Record}

theorem holds_init : blank.init.Holds [] := by
  constructor
  · rfl
  · exact ⟨.empty, rfl, Table.ordered_empty, rfl⟩

theorem Holds.exists_table (hholds : db.Holds records) :
    ∃ table, db.opened = .ok table ∧ table.Ordered ∧ table.rows.map Row.record = records := by
  obtain ⟨table, htable, hordered, hrecords⟩ := hholds.table_eq
  refine ⟨table, ?_, hordered, hrecords⟩
  rw [opened, isInitialized, hholds.schema_eq, htable]
  rfl

theorem Holds.rows_eq (hholds : db.Holds records) : db.rows = .ok records.reverse := by
  obtain ⟨table, hopened, -, hrecords⟩ := hholds.exists_table
  rw [rows, hopened, ← hrecords]
  rfl

theorem Holds.version?_eq (hholds : db.Holds records) : db.version? = some schemaVersion := by
  rw [version?, hholds.schema_eq]
  exact Numeral.word32?_natural schemaVersion

/-- Making ready what is ready changes nothing. -/
theorem Holds.init_eq (hholds : db.Holds records) : db.init = db := by
  unfold init isOutdated
  rw [hholds.schema_eq, hholds.version?_eq]
  rfl

theorem Holds.withTable {table : Table} (hholds : db.Holds records) (hordered : table.Ordered) :
    ({ db with table := some table } : Database).Holds (table.rows.map Row.record) := by
  constructor
  · exact hholds.schema_eq
  · exact ⟨table, rfl, hordered, rfl⟩

theorem Holds.append (hholds : db.Holds records) {record : Record} (htimed : record.IsTimed) :
    ∃ next, append record db = .ok next ∧ next.Holds (records ++ [record]) := by
  obtain ⟨table, hopened, hordered, hrecords⟩ := hholds.exists_table
  refine ⟨{ db with table := some (table.insert record) }, ?_, ?_⟩
  · unfold Database.append
    rw [hopened, storedRecord_eq htimed]
    rfl
  · have hnext := hholds.withTable (hordered.insert record)
    rwa [Table.insert, List.map_append, hrecords] at hnext

theorem Holds.find_eq (hholds : db.Holds records) (hroom : records.length ≤ Table.limitBound)
    (size : Option Nat) (needle : Option String) (limit : Nat) :
    (backend size).find needle limit db = .ok ((mentioning needle records).rtake limit) := by
  obtain ⟨table, hopened, hordered, hrecords⟩ := hholds.exists_table
  have hfind : (backend size).find needle limit db =
      .ok ((table.recent needle limit).map Row.record) := by
    simp only [backend, hopened]
    rfl
  have hfew : (mentioning needle records).length ≤ Table.limitBound :=
    (List.length_filter_le _ _).trans hroom
  rw [hfind, hordered.map_record_recent, hrecords, rtake_min_of_length_le hfew]

theorem Holds.count_eq (hholds : db.Holds records) (size : Option Nat) :
    (backend size).count db = .ok records.length := by
  have hcount : (backend size).count db = db.rows.map List.length := by
    change (db.rows >>= fun rows => pure rows.length) = _
    cases db.rows <;> rfl
  rw [hcount, hholds.rows_eq]
  exact congrArg Except.ok List.length_reverse

theorem Holds.stats_eq (hholds : db.Holds records) (size : Option Nat) :
    (backend size).stats db =
      .ok ⟨records.length, (records.filter Record.failed).length, schemaVersion, size⟩ := by
  have hstats : (backend size).stats db = db.rows.map fun rows =>
      ⟨rows.length, (rows.filter Record.failed).length, db.version?.getD 0, size⟩ := by
    change (db.rows >>= fun rows => pure _) = _
    cases db.rows <;> rfl
  rw [hstats, hholds.rows_eq, hholds.version?_eq, Except.map, List.length_reverse,
    List.filter_reverse, List.length_reverse]
  rfl

/-- A database answers from the list of its records, as long as these can be counted. -/
theorem Holds.perform (hholds : db.Holds records) (size : Option Nat) {call : Call}
    (htimed : ∀ record, call = .append record → record.IsTimed)
    (hroom : records.length ≤ Table.limitBound) :
    (call.perform (backend size) db).1.withoutSize = call.answer records ∧
      (call.perform (backend size) db).2.Holds (call.hold records) := by
  cases call with
  | init =>
    refine ⟨rfl, ?_⟩
    have hsame : (Call.init.perform (backend size) db).2 = db := hholds.init_eq
    rw [hsame]
    exact hholds
  | append record =>
    obtain ⟨next, happend, hnext⟩ := hholds.append (htimed record rfl)
    have hperform : (Call.append record).perform (backend size) db = (.done (.ok ()), next) := by
      simp only [Call.perform, backend, happend]
      rfl
    rw [hperform]
    exact ⟨rfl, hnext⟩
  | list limit =>
    refine ⟨?_, hholds⟩
    rw [Call.perform, hholds.find_eq hroom]
    rfl
  | search needle limit =>
    refine ⟨?_, hholds⟩
    rw [Call.perform, hholds.find_eq hroom]
    rfl
  | count =>
    refine ⟨?_, hholds⟩
    rw [Call.perform, hholds.count_eq]
    rfl
  | clear =>
    obtain ⟨table, hopened, -, hrecords⟩ := hholds.exists_table
    have hperform : Call.clear.perform (backend size) db =
        (.counted (.ok table.rows.length), { db with table := some table.clear }) := by
      simp only [Call.perform, backend, hopened]
      rfl
    rw [hperform]
    constructor
    · rw [Call.answer, ← hrecords, List.length_map]
      rfl
    · exact hholds.withTable Table.Ordered.clear
  | stats =>
    refine ⟨?_, hholds⟩
    rw [Call.perform, hholds.stats_eq]
    rfl

end Database

/-! ## Runs -/

/-- The records that are held never outnumber what a query's limit can count. -/
def Countable (records : List Record) (calls : List Call) : Prop :=
  ∀ front, front <+: calls → (front.foldl Call.hold records).length ≤ Table.limitBound

theorem Countable.tail {records : List Record} {call : Call} {rest : List Call}
    (hroom : Countable records (call :: rest)) : Countable (call.hold records) rest := by
  intro front hfront
  exact hroom (call :: front) ((List.prefix_cons_inj call).mpr hfront)

theorem after_memory (records : List Record) (calls : List Call) :
    after memory records.reverse calls = (calls.foldl Call.hold records).reverse := by
  induction calls generalizing records with
  | nil => rfl
  | cons call rest ih =>
    rw [List.foldl_cons, ← ih, after, List.foldl_cons, Call.perform_memory]
    rfl

theorem Database.Holds.after
    {db : Database} {records : List Record} (hholds : db.Holds records) (size : Option Nat)
    {calls : List Call} (htimed : ∀ record, .append record ∈ calls → record.IsTimed)
    (hroom : Countable records calls) :
    (answers (backend size) db calls).map Answer.withoutSize =
        answers memory records.reverse calls ∧
      (History.after (backend size) db calls).Holds (calls.foldl Call.hold records) := by
  induction calls generalizing db records with
  | nil => exact ⟨rfl, hholds⟩
  | cons call rest ih =>
    have hfew : records.length ≤ Table.limitBound := hroom [] (List.nil_prefix)
    obtain ⟨hanswer, hnext⟩ := hholds.perform size
      (fun record hcall => htimed record (hcall ▸ List.mem_cons_self)) hfew
    obtain ⟨hlater, hlast⟩ := ih hnext
      (fun record hmem => htimed record (List.mem_cons_of_mem call hmem)) hroom.tail
    refine ⟨?_, hlast⟩
    rw [answers, List.map_cons, hanswer, hlater, answers, Call.perform_memory]

/-- Give the same calls to a new history in memory and to a database that was just made
ready, where the times of all records are numbers and not the negative zero, and where
no more records are held at a time than a limit can count.  Every answer is the same but
for the size of a file.  Afterwards a search finds, in both, the last of the records that
hold the text, out of those added since the last clearing, as they were added and in that
order: as many as the limit says, or all of them if these are fewer.  Without a text, or
with the empty one, all records are looked for. -/
theorem backends_answer_alike
    (size : Option Nat) {calls : List Call}
    (htimed : ∀ record, .append record ∈ calls → record.IsTimed)
    (hroom : Countable [] calls) :
    (answers (Database.backend size) Database.blank.init calls).map Answer.withoutSize =
        answers memory [] calls ∧
      (∀ needle limit, ∃ found,
        found <:+ mentioning needle (held calls) ∧
          found.length = min limit (mentioning needle (held calls)).length ∧
          memory.find needle limit (after memory [] calls) = .ok found ∧
          (Database.backend size).find needle limit
            (after (Database.backend size) Database.blank.init calls) = .ok found) ∧
      mentioning none (held calls) = held calls ∧
      mentioning (some "") (held calls) = held calls := by
  obtain ⟨hanswers, hholds⟩ := Database.holds_init.after size htimed hroom
  have hfew : (held calls).length ≤ Table.limitBound := hroom calls (List.prefix_refl calls)
  refine ⟨hanswers, ?_, ?_, ?_⟩
  · intro needle limit
    refine ⟨(mentioning needle (held calls)).rtake limit, List.drop_suffix _ _, ?_, ?_,
      hholds.find_eq hfew size needle limit⟩
    · rw [List.rtake, List.length_drop]
      omega
    · have hafter : after memory [] calls = (held calls).reverse := after_memory [] calls
      rw [hafter, ← newestMatching_reverse]
      rfl
  · simp [mentioning, Record.Mentions]
  · simp [mentioning, Record.Mentions]

theorem length_held_le (calls : List Call) : (held calls).length ≤ calls.length := by
  have hfrom : ∀ records : List Record,
      (calls.foldl Call.hold records).length ≤ records.length + calls.length := by
    induction calls with
    | nil => intro records; exact Nat.le_refl _
    | cons call rest ih =>
      intro records
      have hrest := ih (call.hold records)
      have hcall : (call.hold records).length ≤ records.length + 1 := by
        cases call <;> simp [Call.hold]
      simp only [List.foldl_cons, List.length_cons]
      omega
  simpa [held] using hfrom []

/-- Histories that were cleared between, with a limit of none and one beyond all
counting. -/
theorem cleared_backends_answer_alike :
    let one : Record := ⟨"echo é\n", 0.0, 1.5, some 0, some "é\n"⟩
    let two : Record := ⟨"false\n", 2.5, 2.5, some 1, none⟩
    let three : Record := ⟨"echo é é\n", 3.0, 4.0, none, none⟩
    let calls : List Call := [.append two, .count, .clear, .init, .append one, .append two,
      .append three, .search "é" 0, .search "é" 1, .search "" (2 ^ 64 - 1), .list 2, .stats]
    (∀ record, .append record ∈ calls → record.IsTimed) ∧ Countable [] calls ∧
      (answers (Database.backend (some 4096)) Database.blank.init calls).map
          Answer.withoutSize =
        [.done (.ok ()), .counted (.ok 1), .counted (.ok 1), .done (.ok ()), .done (.ok ()),
          .done (.ok ()), .done (.ok ()), .found (.ok []), .found (.ok [three]),
          .found (.ok [one, two, three]), .found (.ok [two, three]),
          .figures (.ok ⟨3, 1, 1, none⟩)] := by
  intro one two three calls
  have htimed : ∀ record, .append record ∈ calls → record.IsTimed := by
    have hone : one.IsTimed := by
      unfold Record.IsTimed IsKept
      decide
    have htwo : two.IsTimed := by
      unfold Record.IsTimed IsKept
      decide
    have hthree : three.IsTimed := by
      unfold Record.IsTimed IsKept
      decide
    intro record hmem
    obtain rfl | rfl | rfl | rfl :
        record = two ∨ record = one ∨ record = two ∨ record = three := by
      simpa [calls] using hmem
    · exact htwo
    · exact hone
    · exact htwo
    · exact hthree
  have hroom : Countable [] calls := by
    intro front hfront
    have hlength : front.length ≤ 12 := hfront.length_le
    have hheld : (held front).length ≤ front.length := length_held_le front
    exact hheld.trans (hlength.trans (by decide))
  refine ⟨htimed, hroom, ?_⟩
  rw [(backends_answer_alike (some 4096) htimed hroom).1]
  dsimp only [calls, one, two, three]
  rfl

end History
end LineShell
