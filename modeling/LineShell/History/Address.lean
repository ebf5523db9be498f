import LineShell.Path
import LineShell.Text.Numeral
import LineShell.Text.Utf8

/-!
# Addresses of databases

An address tells where a database is kept and what may be done with it.  A text
that begins with `file:` is an address with escapes and parameters, such as
`file:log%20book.db?mode=ro`; every other text is the path of a file that may be
made.  The path `:memory:` and the empty path stand for no file.
-/

namespace LineShell
namespace History

open Text

/-- What may be done with a database: only read it, change it, make it too, or do
all of that without a file. -/
inductive AccessMode where
  | readOnly
  | readWrite
  | create
  | memory
  deriving DecidableEq, Repr

namespace AccessMode

def ofName? : String → Option AccessMode
  | "ro" => some readOnly
  | "rw" => some readWrite
  | "rwc" => some create
  | "memory" => some memory
  | _ => none

/-- How much a mode asks for. -/
def demand : AccessMode → Nat
  | memory => 0
  | readOnly => 1
  | readWrite => 2
  | create => 3

/-- How much a mode leaves to one that comes after it. -/
def grant : AccessMode → Nat
  | readOnly => 1
  | readWrite => 2
  | create => 3
  | memory => 4

end AccessMode

/-- What carries a database: memory, or files, which several processes may use at a
time or only one, or that are used without locks or with a directory as the
lock. -/
inductive Carrier where
  | shared
  | exclusive
  | lockless
  | lockDirectory
  | memory
  deriving DecidableEq, Repr

namespace Carrier

def ofName? : String → Option Carrier
  | "unix" => some shared
  | "unix-excl" => some exclusive
  | "unix-none" => some lockless
  | "unix-dotfile" => some lockDirectory
  | "memdb" => some memory
  | _ => none

end Carrier

/-- Where a database is kept and how it is used. -/
structure Address where
  path : String
  mode : AccessMode
  carrier : Carrier
  /-- Whether the file is taken for one that nobody changes. -/
  immutable : Bool
  /-- Whether the file is used without locks. -/
  unlocked : Bool
  /-- Whether the index of the log is only read. -/
  fixedIndex : Bool
  /-- The path of the file whose rights a new file gets. -/
  pattern : Option String
  deriving DecidableEq, Repr

namespace Address

/-! ## Texts -/

/-- The bytes of a part of an address: a percent sign and two hexadecimal digits
stand for a byte, and a zero byte ends the part. -/
def unescape : List Char → Bytes
  | '%' :: a :: b :: rest =>
    match Numeral.digitIn? 16 a, Numeral.digitIn? 16 b with
    | some high, some low =>
      if high * 16 + low = 0 then [] else UInt8.ofNat (high * 16 + low) :: unescape rest
    | _, _ => Utf8.encodeChars ['%'] ++ unescape (a :: b :: rest)
  | c :: rest => Utf8.encodeChars [c] ++ unescape rest
  | [] => []

def readPart (part : List Char) : String :=
  Utf8.decodeLossy (unescape part)

/-- A parameter: its name and the bytes of its value. -/
abbrev Parameter := String × Bytes

/-- The parameter that a text spells; one without a name counts for nothing. -/
def parameter? (text : List Char) : Option Parameter :=
  let (name, value) := text.span (· ≠ '=')
  if readPart name = "" then none else some (readPart name, unescape (value.drop 1))

/-- The number that a text with a digit in front begins with: hexadecimal digits
after `0x`, or else decimal digits.  One that needs more than 31 bits counts as
zero. -/
def leadingNumber (text : List Char) : Nat :=
  let digits (base : Nat) (text : List Char) :=
    text.takeWhile fun c => (Numeral.digitIn? base c).isSome
  let value (base : Nat) (text : List Char) :=
    (Numeral.unsigned? base 0x80000000 (digits base text)).getD 0
  match text with
  | '0' :: x :: rest =>
    if (x = 'x' ∨ x = 'X') ∧ digits 16 rest ≠ [] then value 16 rest else value 10 text
  | _ => value 10 text

/-- Whether the value of a parameter stands for yes: a word that says so, or a number
whose last byte is not zero. -/
def isYes (value : String) : Bool :=
  if (value.toList.head?).any Char.isDigit then leadingNumber value.toList % 256 ≠ 0
  else ["on", "yes", "true"].contains (value.map Char.toLower)

/-- What follows the two slashes and the host at the beginning of an address; the
host can only be this one. -/
def afterHost : List Char → Except String (List Char)
  | '/' :: '/' :: rest =>
    let (host, path) := rest.span (· ≠ '/')
    if host = [] ∨ host = "localhost".toList then .ok path
    else .error ("invalid uri authority: " ++ String.ofList host)
  | rest => .ok rest

/-! ## Parameters -/

def ofPath (path : String) : Address :=
  ⟨path, .create, .shared, false, false, false, none⟩

def withMode (address : Address) (name : String) : Except String Address :=
  match AccessMode.ofName? name with
  | none => .error ("no such access mode: " ++ name)
  | some mode =>
    if address.mode.grant < mode.demand then .error ("access mode not allowed: " ++ name)
    else .ok { address with mode := mode }

def withParameter (address : Address) : Parameter → Except String Address
  | ("cache", value) =>
    let name := Utf8.decodeLossy value
    if name = "shared" ∨ name = "private" then .ok address
    else .error ("no such cache mode: " ++ name)
  | ("mode", value) => address.withMode (Utf8.decodeLossy value)
  | _ => .ok address

def carrierOf (parameters : List Parameter) : Except String Carrier :=
  match parameters.reverse.lookup "vfs" with
  | none => .ok .shared
  | some value =>
    match Carrier.ofName? (Utf8.decodeLossy value) with
    | some carrier => .ok carrier
    | none => .error ("no such vfs: " ++ Utf8.decodeLossy value)

/-- Whether the first parameter of a name stands for yes. -/
def isOn (name : String) (parameters : List Parameter) : Bool :=
  (parameters.lookup name).any fun value => isYes (Utf8.decodeLossy value)

/-- The address whose text follows the scheme: a path, parameters after a question
mark, and a remark after a number sign. -/
def ofParts (text : List Char) : Except String Address := do
  let text ← afterHost text
  let (path, query) := (text.takeWhile (· ≠ '#')).span (· ≠ '?')
  let parameters := (Path.splitAt '&' (query.drop 1)).filterMap parameter?
  let address ← parameters.foldlM withParameter (ofPath (Path.ofBytes (unescape path)))
  let carrier ← carrierOf parameters
  pure { address with
    carrier := carrier
    immutable := isOn "immutable" parameters
    unlocked := isOn "nolock" parameters
    fixedIndex := isOn "readonly_shm" parameters
    pattern := (parameters.lookup "modeof").map Path.ofBytes }

def scheme : String := "file:"

/-- The address that a text spells, or why it spells none. -/
def ofText (text : String) : Except String Address :=
  if scheme.toList.isPrefixOf text.toList then
    ofParts (text.toList.drop scheme.length)
  else .ok (ofPath text)

/-! ## Use -/

/-- Whether an address names a database, rather than a new one in memory. -/
def isNamed (address : Address) : Bool :=
  address.path ≠ "" && address.path ≠ ":memory:" && address.mode ≠ .memory

def hasFile (address : Address) : Bool :=
  address.isNamed && address.carrier ≠ .memory

/-- The most bytes of the path of a database in memory, with room for the ending of a
journal. -/
def memoryLimit : Nat := 1016

/-- Whether the path of a named database in memory is too long. -/
def isTooLong (address : Address) : Bool :=
  address.isNamed && memoryLimit < Path.size address.path

/-- Whether nothing forbids to change the database. -/
def isWritable (address : Address) : Bool :=
  address.mode ≠ .readOnly && !(address.immutable && address.isNamed)

/-- Whether changes of the file can go to a log first: processes can share it, and
the one that uses it takes part in that. -/
def keepsLog (address : Address) : Bool :=
  (address.carrier = .shared || address.carrier = .exclusive) &&
    !address.unlocked && !address.immutable

/-- Whether a directory beside the file is taken as the lock. -/
def locksDirectory (address : Address) : Bool :=
  address.carrier = .lockDirectory && !address.unlocked && !address.immutable

/-- Whether the index of the log stays in memory, because nobody else can want
it. -/
def hidesIndex (address : Address) : Bool :=
  address.carrier = .exclusive && address.mode ≠ .readOnly

end Address
end History
end LineShell
