import LineShell.Binary
import LineShell.Language.Parse

/-!
# Program code

The code of a compiled unit is its program in the binary format.  Decoding reads
it back, and the compiler of the line language is parsing followed by encoding.
-/

namespace LineShell
namespace Language

open Binary

namespace Code

def ofPart : Part → Bytes
  | .lit s => varint 0 ++ text s
  | .var s => varint 1 ++ text s

def ofWord (word : Word) : Bytes :=
  sequence ofPart word

def ofWords (words : List Word) : Bytes :=
  sequence ofWord words

def ofStream : Stream → Bytes
  | .stdout => varint 0
  | .stderr => varint 1

mutual

def ofStmt : Stmt → Bytes
  | .echo stream words => varint 0 ++ ofStream stream ++ ofWords words
  | .set name words => varint 1 ++ text name ++ ofWords words
  | .unset name => varint 2 ++ text name
  | .cd dir => varint 3 ++ option ofWord dir
  | .succeed => varint 4
  | .markFailed => varint 5
  | .exit code => varint 6 ++ option int32 code
  | .fail words => varint 7 ++ ofWords words
  | .abort words => varint 8 ++ ofWords words
  | .loop count body =>
    varint 9 ++ varint count.toNat ++ varint body.length ++ ofStmts body

/-- Statements, one after the other. -/
def ofStmts : List Stmt → Bytes
  | [] => []
  | stmt :: rest => ofStmt stmt ++ ofStmts rest

end

def part : Reader Part := do
  match ← Reader.choice 2 with
  | 0 => .lit <$> Reader.text
  | _ => .var <$> Reader.text

def word : Reader Word :=
  Reader.sequence part

def words : Reader (List Word) :=
  Reader.sequence word

def stream : Reader Stream := do
  match ← Reader.choice 2 with
  | 0 => pure .stdout
  | _ => pure .stderr

/-- Reads a statement whose repetitions nest less deep than a bound. -/
def stmt : Nat → Reader Stmt
  | 0 => Reader.fail (.unexpectedEnd 1)
  | depth + 1 => do
    match ← Reader.choice 10 with
    | 0 => do
      let out ← stream
      let ws ← words
      pure (.echo out ws)
    | 1 => do
      let name ← Reader.text
      let ws ← words
      pure (.set name ws)
    | 2 => .unset <$> Reader.text
    | 3 => .cd <$> Reader.option word
    | 4 => pure .succeed
    | 5 => pure .markFailed
    | 6 => .exit <$> Reader.option Reader.int32
    | 7 => .fail <$> words
    | 8 => .abort <$> words
    | _ => do
      let count ← Reader.word32
      let body ← Reader.sequence (stmt depth)
      pure (.loop count body)

end Code

namespace Program

def encode (program : Program) : Bytes :=
  varint program.length ++ Code.ofStmts program

/-- The program of a code.  Each level of nesting takes bytes of its own, so the
number of bytes bounds the depth. -/
def decode (code : Bytes) : Except Binary.Error Program :=
  Reader.decode (Reader.sequence (Code.stmt (code.length + 1))) code

end Program

/-- What identifies this compiler: units of another one are never reused. -/
def fingerprint : String := "incsh-lang/0.1.0/r1"

def compile (source : String) (mode : Mode) (filename : String) :
    Except CompileError CompiledUnit :=
  match parse mode source with
  | .ok program => .ok ⟨source, mode, filename, Program.encode program⟩
  | .error e => .error e.toCompileError

end Language
end LineShell
