import LineShell.CompiledUnit
import LineShell.Language.Scan
import LineShell.Text.Blank
import LineShell.Text.Numeral

/-!
# Statements and blocks

Logical lines become statements, and the lines that are indented deeper than a
repetition become its body.  An empty line ends every open block.  The two modes
differ only at the end of the source: a script's end closes its blocks, and
typed input with an open block is unfinished.
-/

namespace LineShell
namespace Language

open Text

/-- Why a line is no statement, or stands where none may. -/
inductive Malformed where
  | emptyStatement
  | variableCommand
  | unknownCommand (name : String)
  | missingName
  | invalidName (command : String)
  | unsetArguments
  | cdArguments
  | strayArguments (command : String)
  | exitCode
  | exitArguments
  | variableCount
  | missingColon
  | invalidCount
  | unexpectedIndent
  | unmatchedIndent
  | missingBlock
  deriving DecidableEq, Repr

namespace Malformed

def message : Malformed → String
  | emptyStatement => "empty statement"
  | variableCommand => "command name must be literal"
  | unknownCommand name => "unknown command: " ++ name
  | missingName => "set: missing variable name"
  | invalidName command => command ++ ": invalid variable name"
  | unsetArguments => "unset: expected one name"
  | cdArguments => "cd: too many arguments"
  | strayArguments command => command ++ ": takes no arguments"
  | exitCode => "exit: code must be an integer"
  | exitArguments => "exit: too many arguments"
  | variableCount => "repeat: count must be literal"
  | missingColon => "repeat: expected ':' after the count"
  | invalidCount => "repeat: count must be a non-negative integer"
  | unexpectedIndent => "unexpected indent"
  | unmatchedIndent => "unindent does not match the block's indentation"
  | missingBlock => "expected an indented block"

end Malformed

/-- Why a source is no program. -/
inductive ParseError where
  | unfinished (cause : Unfinished)
  | malformed (cause : Malformed) (line column : Nat)
  deriving DecidableEq, Repr

namespace ParseError

def toCompileError : ParseError → CompileError
  | unfinished cause => .incomplete cause.message
  | malformed cause line column => .malformed cause.message line column

end ParseError

/-- What a line says: a whole statement, or the head of a repetition. -/
inductive Clause where
  | whole (stmt : Stmt)
  | head (count : UInt32)

namespace Clause

def nameOf (command : String) (word : Word) : Except Malformed String :=
  match word.literal? with
  | some name => if isName name then .ok name else .error (.invalidName command)
  | none => .error (.invalidName command)

/-- The count that the words of a repetition's head spell together. -/
def countOf (words : List Word) : Except Malformed UInt32 :=
  match words.mapM Word.literal? with
  | none => .error .variableCount
  | some texts =>
    match (String.join texts).toList.reverse with
    | ':' :: rest =>
      match Numeral.word32? (trim rest.reverse) with
      | some count => .ok count
      | none => .error .invalidCount
    | _ => .error .missingColon

def codeOf (word : Word) : Except Malformed Int32 :=
  match word.literal?.bind fun text => Numeral.int32? text.toList with
  | some code => .ok code
  | none => .error .exitCode

def ofCommand (command : String) (args : List Word) : Except Malformed Clause :=
  match command with
  | "echo" => .ok (.whole (.echo .stdout args))
  | "echoerr" => .ok (.whole (.echo .stderr args))
  | "set" =>
    match args with
    | [] => .error .missingName
    | name :: words => (nameOf "set" name).map fun name => .whole (.set name words)
  | "unset" =>
    match args with
    | [name] => (nameOf "unset" name).map fun name => .whole (.unset name)
    | _ => .error .unsetArguments
  | "cd" =>
    match args with
    | [] => .ok (.whole (.cd none))
    | [dir] => .ok (.whole (.cd (some dir)))
    | _ => .error .cdArguments
  | "true" => if args.isEmpty then .ok (.whole .succeed) else .error (.strayArguments "true")
  | "false" =>
    if args.isEmpty then .ok (.whole .markFailed) else .error (.strayArguments "false")
  | "exit" =>
    match args with
    | [] => .ok (.whole (.exit none))
    | [code] => (codeOf code).map fun code => .whole (.exit (some code))
    | _ => .error .exitArguments
  | "fail" => .ok (.whole (.fail args))
  | "abort" => .ok (.whole (.abort args))
  | "repeat" => (countOf args).map .head
  | other => .error (.unknownCommand other)

def ofWords : List Word → Except Malformed Clause
  | [] => .error .emptyStatement
  | command :: args =>
    match command.literal? with
    | some name => ofCommand name args
    | none => .error .variableCommand

end Clause

/-- The head of a repetition whose body is being read. -/
structure Head where
  number : Nat
  indent : Nat
  count : UInt32
  deriving DecidableEq, Repr

/-- Statements of one indentation, the last one first. -/
structure Block where
  indent : Option Nat
  stmts : List Stmt

namespace Block

def empty : Block :=
  ⟨none, []⟩

def push (block : Block) (stmt : Stmt) : Block :=
  { block with stmts := stmt :: block.stmts }

end Block

/-- The open blocks of a part of a source: the innermost one, and around it each
block with the head of the repetition that is open in it. -/
structure Blocks where
  inner : Block
  outer : List (Head × Block)

namespace Blocks

def initial : Blocks :=
  ⟨.empty, []⟩

/-- Ends open blocks, the innermost first, up to one whose head is to be kept.
A repetition without a body is malformed. -/
def settle (keep : Head → Bool) : Block → List (Head × Block) → Except ParseError Blocks
  | inner, [] => .ok ⟨inner, []⟩
  | inner, (head, block) :: rest =>
    if keep head then .ok ⟨inner, (head, block) :: rest⟩
    else if inner.stmts.isEmpty then .error (.malformed .missingBlock (head.number + 1) 1)
    else settle keep (block.push (.loop head.count inner.stmts.reverse)) rest

/-- Why a line of an indentation may not stand in the innermost block. -/
def indentFault? (blocks : Blocks) (indent : Nat) : Option Malformed :=
  match blocks.inner.indent with
  | none => none
  | some expected =>
    if indent = expected then none
    else if indent < expected ∧ !blocks.outer.isEmpty then some .unmatchedIndent
    else some .unexpectedIndent

/-- The blocks with what a line of an indentation says at their end. -/
def add (blocks : Blocks) (number indent : Nat) (clause : Clause) : Blocks :=
  let inner := { blocks.inner with indent := some indent }
  match clause with
  | .whole stmt => { blocks with inner := inner.push stmt }
  | .head count => ⟨.empty, (⟨number, indent, count⟩, inner) :: blocks.outer⟩

def step (blocks : Blocks) : Line → Except ParseError Blocks
  | .blank => settle (fun _ => false) blocks.inner blocks.outer
  | .code number indent words => do
    let blocks ← settle (fun head => head.indent < indent) blocks.inner blocks.outer
    match blocks.indentFault? indent with
    | some fault => .error (.malformed fault number (indent + 1))
    | none =>
      match Clause.ofWords words with
      | .ok clause => .ok (blocks.add number indent clause)
      | .error fault => .error (.malformed fault number (indent + 1))

def finish (mode : Mode) (blocks : Blocks) : Except ParseError Program :=
  match mode with
  | .single =>
    if blocks.outer.isEmpty then .ok blocks.inner.stmts.reverse
    else .error (.unfinished .openBlock)
  | .exec => do
    let blocks ← settle (fun _ => false) blocks.inner blocks.outer
    .ok blocks.inner.stmts.reverse

def ofLines (mode : Mode) (lines : List Line) : Except ParseError Program := do
  let blocks ← lines.foldlM step initial
  finish mode blocks

end Blocks

def parse (mode : Mode) (source : String) : Except ParseError Program :=
  match lines source.toList with
  | .ok lines => Blocks.ofLines mode lines
  | .error cause => .error (.unfinished cause)

end Language
end LineShell
