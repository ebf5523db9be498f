import LineShell.Errors
import LineShell.History.Backend
import LineShell.Json.Decode
import LineShell.Text.Blank

/-!
# Reports

What the commands print: lists of records, the status and errors, as text or as
JSON.
-/

namespace LineShell
namespace CommandLine

open History Text

/-- The form of a report. -/
inductive Format where
  | text
  | json
  deriving DecidableEq, Repr

namespace Format

/-- The form with a name; every other name means text. -/
def ofName (name : String) : Format :=
  if name.toList.map Char.toLower = "json".toList then json else text

end Format

def padRight (width : Nat) (text : List Char) : List Char :=
  text ++ List.replicate (width - text.length) ' '

def durationText (seconds : Float) : String :=
  if seconds < 1.0 then Decimal.renderPlaces 0 (seconds * 1000.0) ++ "ms"
  else Decimal.renderPlaces 2 seconds ++ "s"

/-- A text cut to a width, with three points where something was cut off. -/
def truncate (width : Nat) (text : List Char) : List Char :=
  if text.length ≤ width then text
  else if width ≤ 3 then text.take width
  else text.take (width - 3) ++ "...".toList

/-- The first line of a text, without its line end. -/
def firstLine (text : List Char) : List Char :=
  let line := text.takeWhile (· ≠ '\n')
  if line.length < text.length ∧ line.getLast? = some '\r' then line.dropLast else line

def historyRow (record : Record) : List Char :=
  let code := match record.returnCode with
    | some code => Numeral.integer code.toInt
    | none => ['-']
  let input := record.input.toList
  let more := if (trimEnd input).contains '\n' then " ...".toList else []
  padRight 6 code ++ ' ' :: padRight 10 (durationText record.duration).toList ++
    ' ' :: truncate 48 (firstLine input) ++ more ++ ['\n']

def historyText (records : List Record) : String :=
  if records.isEmpty then "No history found.\n"
  else
    String.ofList (padRight 6 "RTN".toList ++ ' ' :: padRight 10 "Duration".toList ++
      " Input\n".toList ++ List.replicate 60 '-' ++ '\n' :: records.flatMap historyRow)

def historyReport (format : Format) (records : List Record) : String :=
  match format with
  | .text => historyText records
  | .json => (Json.array (records.map Record.toJson)).render

/-- What the status tells; the figures are missing where there is no database. -/
structure Status where
  database : String
  history : Option Stats
  cacheDir : String
  cacheEntries : Nat
  encoding : String
  errors : String
  interactive : Bool
  scripts : Bool
  deriving DecidableEq, Repr

namespace Status

def line (name value : String) : List Char :=
  "  ".toList ++ padRight 15 (name ++ ":").toList ++ value.toList ++ ['\n']

def historyLines : Option Stats → List Char
  | none => line "Records" "(no database)"
  | some stats =>
    line "Records" (Numeral.naturalText stats.records) ++
      line "Failed" (Numeral.naturalText stats.failed) ++
      line "Schema" ("v" ++ Numeral.naturalText stats.schema.toNat) ++
      match stats.size with
      | some size => line "DB size" (Numeral.naturalText size ++ " bytes")
      | none => []

def onOff (b : Bool) : String :=
  if b then "on" else "off"

def text (status : Status) : String :=
  String.ofList ("incsh Status\n============\n\n".toList ++
    line "History DB" status.database ++ historyLines status.history ++
    line "Cache dir" status.cacheDir ++
    line "Cached units" (Numeral.naturalText status.cacheEntries) ++
    line "Caching" ("interactive=" ++ onOff status.interactive ++ " scripts=" ++
      onOff status.scripts) ++
    line "Encoding" (status.encoding ++ " (" ++ status.errors ++ ")"))

def statsJson (stats : Stats) : Json :=
  .object
    [("record_count", .integer stats.records),
     ("failed_count", .integer stats.failed),
     ("schema_version", .integer stats.schema.toNat),
     ("db_size", Json.ofOption (fun size => .integer (size : Nat)) stats.size)]

def json (status : Status) : Json :=
  .object
    [("db_path", .string status.database),
     ("history", Json.ofOption statsJson status.history),
     ("cache_dir", .string status.cacheDir),
     ("cache_entries", .integer status.cacheEntries),
     ("encoding", .string status.encoding),
     ("errors", .string status.errors),
     ("cache_everything", .bool status.interactive),
     ("cache_scripts", .bool status.scripts)]

def report (format : Format) (status : Status) : String :=
  match format with
  | .text => status.text
  | .json => status.json.render

end Status

def errorReport (format : Format) (e : ShellError) : String :=
  match format with
  | .text => e.message
  | .json => (Json.object [("error", .string e.message)]).render

end CommandLine
end LineShell
