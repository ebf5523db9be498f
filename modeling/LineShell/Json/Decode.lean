import LineShell.History.Record
import LineShell.Json.Reader
import LineShell.Value

/-!
# Values and records from JSON

A value is an object with its type and its content, in either order, or an array
of the two; a record is an object with its four fields, or an array of them.
Fields of other names are passed over.  Documents nest less deep than 128 levels
where they are looked at.  A content that stands before its type is kept until the
type is known, and in what was kept a type may be written in more ways.
-/

namespace LineShell
namespace Json

/-- How many levels may be opened. -/
def depthLimit : Nat := 127

/-- Whether all of a document has a meaning and opens at most a number of
levels. -/
def isWhole : Nat → Json → Bool
  | _, broken => false
  | 0, array _ | 0, object _ => false
  | n + 1, array items => items.all (isWhole n)
  | n + 1, object fields => fields.all fun field => isWhole n field.2
  | _, _ => true

/-- The only field of a name; `none` is a second one of the same name. -/
def field? (name : String) (fields : List (String × Json)) : Option (Option Json) :=
  match fields.filter fun field => field.1 = name with
  | [] => some none
  | [(_, value)] => some (some value)
  | _ => none

def intIn? (low high : Int) : Json → Option Int
  | integer n => if low ≤ n ∧ n ≤ high then some n else none
  | _ => none

def float? : Json → Option Float
  | float x => some x
  | integer n =>
    let x := (UInt64.ofNat n.natAbs).toFloat
    some (if n < 0 then -x else x)
  | _ => none

def string? : Json → Option String
  | string s => some s
  | _ => none

def optional? {α : Type} (read : Json → Option α) : Json → Option (Option α)
  | null => some none
  | json => (read json).map some

end Json

namespace Value

open Json

/-- How a document is met: where it stands, or in a content that was kept because
its type comes later. -/
inductive Meeting where
  | inPlace
  | kept
  deriving DecidableEq, Repr

/-- The names of types, in order. -/
def typeNames : List String :=
  ["String", "Integer", "Float", "Boolean", "List", "Null"]

/-- The name of a type in an object: a string, or an object with the name before a
null or, if it was kept, before an empty object. -/
def typeField? : Meeting → Nat → Json → Option String
  | _, _, string s => some s
  | _, _ + 1, object [(name, Json.null)] => some name
  | .kept, _ + 1, object [(name, object [])] => some name
  | _, _, _ => none

/-- The name of a type in an array: a string or, if it was kept, the number of the
type. -/
def typeItem? : Meeting → Json → Option String
  | _, string s => some s
  | .kept, Json.integer (Int.ofNat n) => typeNames[n]?
  | _, _ => none

def contentFirst (fields : List (String × Json)) : Bool :=
  match fields.find? fun field => field.1 = "type" || field.1 = "value" with
  | some field => field.1 = "value"
  | none => false

/-- The value of a document that opens at most a number of levels. -/
def ofJson? (meeting : Meeting) : Nat → Json → Option Value
  | n + 1, object fields => do
    let type ← field? "type" fields
    let content ← field? "value" fields
    let name ← type.bind (typeField? meeting n)
    match content with
    | none => if name = "Null" then some .null else none
    | some content =>
      if !contentFirst fields then ofContent? meeting n name content
      else if isWhole n content then ofContent? .kept n name content
      else none
  | n + 1, array [type, content] => do
    let name ← typeItem? meeting type
    ofContent? meeting n name content
  | _, _ => none
where
  /-- The value of a type's content. -/
  ofContent? (meeting : Meeting) (levels : Nat) (name : String) (content : Json) :
      Option Value :=
    match name, content with
    | "String", string s => some (.text s)
    | "Integer", json =>
      (intIn? Int64.minValue.toInt Int64.maxValue.toInt json).map fun n => .integer (Int64.ofInt n)
    | "Float", json => (float? json).map .float
    | "Boolean", Json.bool b => some (.boolean b)
    | "List", array items =>
      match levels with
      | n + 1 => (items.mapM (ofJson? meeting n)).map .list
      | 0 => none
    | "Null", Json.null => some .null
    | _, _ => none

def read? (text : String) : Option Value :=
  (Json.read? text).bind (ofJson? .inPlace depthLimit)

end Value

namespace History
namespace Record

open Json

def ofParts? (input times code output : Json) : Option Record := do
  let input ← string? input
  let code ← optional? (intIn? Int32.minValue.toInt Int32.maxValue.toInt) code
  let output ← optional? string? output
  match times with
  | array [start, stop] =>
    let start ← float? start
    let stop ← float? stop
    pure ⟨input, start, stop, code.map Int32.ofInt, output⟩
  | _ => none

def ofJson? : Json → Option Record
  | object fields => do
    let input ← field? "inp" fields
    let times ← field? "ts" fields
    let code ← field? "rtn" fields
    let output ← field? "out" fields
    ofParts? (← input) (← times) (code.getD null) (output.getD null)
  | array [input, times, code, output] => ofParts? input times code output
  | _ => none

def read? (text : String) : Option Record :=
  (Json.read? text).bind ofJson?

def toJson (record : Record) : Json :=
  object
    [("inp", string record.input),
     ("ts", array [float record.start, float record.stop]),
     ("rtn", ofOption (fun code => integer code.toInt) record.returnCode),
     ("out", ofOption string record.output)]

end Record
end History
end LineShell
