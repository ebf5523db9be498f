import LineShell.Errors
import LineShell.History.Record

/-!
# Journals

A journal takes one record after the other.  The histories of the shell fail with
errors of the storage; a journal that a session is given may fail with any error of the
shell.
-/

namespace LineShell
namespace History

/-- What takes records, over a state of type `η`, and fails with errors of type `ε`. -/
structure Journal (η : Type) (ε : Type := StorageError) where
  /-- Adds a record, or tells why it cannot. -/
  append : Record → η → Except ε Unit × η

namespace Journal

variable {η : Type}

/-- A journal whose errors are among those of the shell. -/
def ofStorage (journal : Journal η) : Journal η ShellError where
  append record history :=
    let (result, history) := journal.append record history
    (result.mapError .storage, history)

instance : Coe (Option (Journal η)) (Option (Journal η ShellError)) where
  coe := Option.map ofStorage

end Journal
end History
end LineShell
