import LineShell.Text.Numeral
import LineShell.Text.Utf8

/-!
# The binary format

Numbers wider than a byte are written in one byte if they are below 251, and
otherwise as a mark that tells the width and the bytes of that width, the lowest
first.  Signed numbers are folded onto the others, so that small absolute values
stay short.  Texts and sequences begin with their length, and the constructor of
a choice is written as its index.

A reader takes back what was written.  It also accepts a number in a wider form
than it needs, up to the width of its kind, and it never takes more than a budget
of nominal sizes, whatever lengths the bytes claim.
-/

namespace LineShell
namespace Binary

open Text

/-! ## Writing -/

/-- The lowest bytes of a number, the lowest first. -/
def littleEndian : Nat → Nat → Bytes
  | 0, _ => []
  | width + 1, n => UInt8.ofNat (n % 256) :: littleEndian width (n / 256)

def varint (n : Nat) : Bytes :=
  if n < 251 then [UInt8.ofNat n]
  else if n < UInt16.size then 251 :: littleEndian 2 n
  else if n < UInt32.size then 252 :: littleEndian 4 n
  else if n < UInt64.size then 253 :: littleEndian 8 n
  else 254 :: littleEndian 16 n

/-- A signed number folded onto the natural numbers: 0, -1, 1, -2, ... -/
def zigzag (n : Int) : Nat :=
  if 0 ≤ n then 2 * n.natAbs else 2 * n.natAbs - 1

def unzigzag (n : Nat) : Int :=
  if n % 2 = 0 then (n / 2 : Nat) else -((n / 2 : Nat) : Int) - 1

def int32 (n : Int32) : Bytes :=
  varint (zigzag n.toInt)

def text (s : String) : Bytes :=
  let bytes := Utf8.encode s
  varint bytes.length ++ bytes

def sequence {α : Type} (write : α → Bytes) (items : List α) : Bytes :=
  varint items.length ++ items.flatMap write

def option {α : Type} (write : α → Bytes) : Option α → Bytes
  | none => [0]
  | some a => 1 :: write a

/-! ## Reading -/

/-- Why bytes could not be read. -/
inductive Error where
  | unexpectedEnd (missing : Nat)
  | limitExceeded
  | wideNumber (mark bits : Nat)
  | badFlag (value : Nat)
  | badChoice (index count : Nat)
  | badText
  deriving DecidableEq, Repr

namespace Error

def markName (mark : Nat) : String :=
  if mark = 251 then "U16"
  else if mark = 252 then "U32"
  else if mark = 253 then "U64"
  else if mark = 254 then "U128"
  else "Reserved"

def message : Error → String
  | unexpectedEnd missing =>
    "UnexpectedEnd \x7b additional: " ++ Numeral.naturalText missing ++ " \x7d"
  | limitExceeded => "LimitExceeded"
  | wideNumber mark bits =>
    "InvalidIntegerType \x7b expected: U" ++ Numeral.naturalText bits ++ ", found: " ++
      markName mark ++ " \x7d"
  | badFlag value => "InvalidBooleanValue(" ++ Numeral.naturalText value ++ ")"
  | badChoice index count =>
    "invalid value: integer `" ++ Numeral.naturalText index ++
      "`, expected variant index 0 <= i < " ++ Numeral.naturalText count
  | badText => "invalid UTF-8 text"

end Error

/-- The bytes that are left and the budget that is left. -/
structure Input where
  bytes : Bytes
  budget : Nat
  deriving DecidableEq, Repr

/-- Takes a value from the front of the bytes. -/
abbrev Reader (α : Type) := StateT Input (Except Error) α

/-- The nominal sizes that one reading may take together: 16 MiB. -/
def limit : Nat := 16 * 1024 * 1024

namespace Reader

def fail {α : Type} (e : Error) : Reader α :=
  fun _ => .error e

def claim (size : Nat) : Reader Unit := fun input =>
  if size ≤ input.budget then .ok ((), { input with budget := input.budget - size })
  else .error .limitExceeded

def byte : Reader UInt8 := fun input =>
  match input.bytes with
  | [] => .error (.unexpectedEnd 1)
  | b :: rest => .ok (b, { input with bytes := rest })

def take (n : Nat) : Reader Bytes := fun input =>
  let front := input.bytes.take n
  if front.length = n then .ok (front, { input with bytes := input.bytes.drop n })
  else .error (.unexpectedEnd (n - front.length))

/-- The number that bytes spell, the lowest first. -/
def value (bytes : Bytes) : Nat :=
  bytes.foldr (fun b n => b.toNat + 256 * n) 0

/-- A number whose form may be as wide as a number of bits. -/
def varint (bits : Nat) : Reader Nat := do
  claim (bits / 8)
  let mark ← byte
  if mark.toNat < 251 then pure mark.toNat
  else if mark = 251 then value <$> take 2
  else if mark = 252 then value <$> take 4
  else if mark = 253 ∧ 64 ≤ bits then value <$> take 8
  else if mark = 254 ∧ 128 ≤ bits then value <$> take 16
  else fail (.wideNumber mark.toNat bits)

def rawByte : Reader UInt8 := do
  claim 1
  byte

/-- A 32-bit word. -/
def word32 : Reader UInt32 :=
  UInt32.ofNat <$> varint 32

def int32 : Reader Int32 :=
  (fun n => Int32.ofInt (unzigzag n)) <$> varint 32

def choice (count : Nat) : Reader Nat := do
  let index ← varint 32
  if index < count then pure index else fail (.badChoice index count)

def text : Reader String := do
  let length ← varint 64
  claim length
  let bytes ← take length
  match Utf8.decode? bytes with
  | some s => pure s
  | none => fail .badText

def items {α : Type} (read : Reader α) : Nat → Reader (List α)
  | 0 => pure []
  | n + 1 => do
    let item ← read
    let rest ← items read n
    pure (item :: rest)

def sequence {α : Type} (read : Reader α) : Reader (List α) := do
  let length ← varint 64
  items read length

def option {α : Type} (read : Reader α) : Reader (Option α) := do
  let flag ← rawByte
  if flag = 0 then pure none
  else if flag = 1 then some <$> read
  else fail (.badFlag flag.toNat)

/-- Reads a value from the front of bytes within the limit; what follows is
ignored. -/
def decode {α : Type} (read : Reader α) (bytes : Bytes) : Except Error α :=
  match read.run ⟨bytes, limit⟩ with
  | .ok (a, _) => .ok a
  | .error e => .error e

end Reader
end Binary
end LineShell
