import LineShell.History.Journal
import LineShell.Text.Search

/-!
# Histories that can be searched

What can be asked of a history and done to it, whatever keeps the records.
-/

namespace LineShell
namespace History

open Text

/-- Figures about a history; the size is that of the file that holds it. -/
structure Stats where
  records : Nat
  failed : Nat
  schema : UInt32
  size : Option Nat
  deriving DecidableEq, Repr

def schemaVersion : UInt32 := 1

/-- A history over a state of type `η`. -/
structure Backend (η : Type) extends Journal η where
  /-- Makes the history ready for use; once more changes nothing. -/
  init : η → Except StorageError Unit × η
  /-- Whether the history is ready for use. -/
  isInitialized : η → Bool
  /-- The last records, at most a number of them and the oldest first, among those
  whose source holds a text if one is given. -/
  find : Option String → Nat → η → Except StorageError (List Record)
  /-- The number of records. -/
  count : η → Except StorageError Nat
  /-- Removes every record and counts them. -/
  clear : η → Except StorageError Nat × η
  /-- Figures about the history. -/
  stats : η → Except StorageError Stats

/-- Whether a record belongs to the ones that are looked for. -/
def Record.matches (needle : Option String) (record : Record) : Bool :=
  match needle with
  | none => true
  | some text => occursIn text.toList record.input.toList

/-- The last matching records of a list that has the newest one first; they come
with the oldest one first. -/
def newestMatching (needle : Option String) (limit : Nat) (newest : List Record) :
    List Record :=
  ((newest.filter (Record.matches needle)).take limit).reverse

/-- Records in memory, the newest one first. -/
abbrev Memory := List Record

def memory : Backend Memory where
  append record records := (.ok (), record :: records)
  init records := (.ok (), records)
  isInitialized _ := true
  find needle limit records := .ok (newestMatching needle limit records)
  count records := .ok records.length
  clear records := (.ok records.length, [])
  stats records :=
    .ok ⟨records.length, (records.filter Record.failed).length, schemaVersion, none⟩

end History
end LineShell
