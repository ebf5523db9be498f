import LineShell.Language.Program

/-!
# Logical lines

A source is cut into logical lines: an empty line, or a line of words with the
width of its indentation.  A logical line may run over several physical lines,
in a quoted text or behind a backslash.  Lines that hold only blanks or a
comment leave no trace.

The scan reads one character at a time and never fails on the way; what a source
lacks shows only at its end.
-/

namespace LineShell
namespace Language

/-- A logical line.  A line of words carries the number of the physical line on
which it begins, counted from one, and the width of its indentation. -/
inductive Line where
  | blank
  | code (number indent : Nat) (words : List Word)
  deriving DecidableEq, Repr

/-- Why the end of a source leaves it unfinished. -/
inductive Unfinished where
  | openQuote
  | openContinuation
  | openBlock
  deriving DecidableEq, Repr

namespace Unfinished

def message : Unfinished → String
  | openQuote => "unterminated string"
  | openContinuation => "line continuation"
  | openBlock => "block not terminated by a blank line"

end Unfinished

/-- A word that is being read: its parts, the last one first. -/
abbrev OpenWord := List Part

namespace OpenWord

/-- The word with text at its end, which joins a literal part that stands there. -/
def addText (word : OpenWord) (text : String) : OpenWord :=
  match word with
  | .lit last :: rest => .lit (last ++ text) :: rest
  | _ => .lit text :: word

def addChar (word : OpenWord) (c : Char) : OpenWord :=
  match word with
  | .lit last :: rest => .lit (last.push c) :: rest
  | _ => .lit (String.singleton c) :: word

/-- The word with a variable at its end; the letters of its name are given with
the last one first. -/
def addVar (word : OpenWord) (letters : List Char) : OpenWord :=
  .var (String.ofList letters.reverse) :: word

def close (word : OpenWord) : Word :=
  word.reverse

end OpenWord

/-- Where the scan stands within a logical line: between words, in a comment at
its end, in a word outside quotes, behind a backslash outside quotes, or in a
quoted text and perhaps behind a backslash there.  Behind a dollar sign the
letters of a name collect, the last one first. -/
inductive Cursor where
  | gap
  | remark
  | bare (word : OpenWord)
  | escape (word : Option OpenWord)
  | name (word : OpenWord) (letters : List Char)
  | single (word : OpenWord)
  | singleEscape (word : OpenWord)
  | double (word : OpenWord)
  | doubleEscape (word : OpenWord)
  | doubleName (word : OpenWord) (letters : List Char)
  deriving DecidableEq, Repr

/-- A logical line that is being read: where it begins, its indentation, its
finished words, the last one first, and the place in it. -/
structure OpenLine where
  number : Nat
  indent : Nat
  words : List Word
  cursor : Cursor
  deriving DecidableEq, Repr

namespace OpenLine

def goto (line : OpenLine) (cursor : Cursor) : OpenLine :=
  { line with cursor := cursor }

def endWord (line : OpenLine) (word : Option OpenWord) : OpenLine :=
  { line with
    words := (word.map OpenWord.close).toList ++ line.words
    cursor := .gap }

def close (line : OpenLine) (word : Option OpenWord) : Line :=
  .code line.number line.indent (line.endWord word).words.reverse

end OpenLine

/-- Where the scan stands: in the indentation of a line, in a line that is a
comment, or in a logical line. -/
inductive Place where
  | indent (width : Nat)
  | comment
  | within (line : OpenLine)
  deriving DecidableEq, Repr

/-- The scan of a part of a source: the logical lines, the last one first, the
number of the physical line and the place in it. -/
structure Scan where
  lines : List Line
  number : Nat
  place : Place
  deriving DecidableEq, Repr

namespace Scan

def initial : Scan :=
  ⟨[], 1, .indent 0⟩

/-- A character outside quotes, with the word that it may belong to: the line
goes on at another place, or `none` ends it. -/
def readBare (line : OpenLine) (word : Option OpenWord) (c : Char) : Option OpenLine :=
  if c = '\n' then none
  else if c = ' ' ∨ c = '\t' then some (line.endWord word)
  else if c = '#' ∧ word.isNone then some (line.goto .remark)
  else if c = '\\' then some (line.goto (.escape word))
  else
    let open' := word.getD []
    if c = '\'' then some (line.goto (.single (open'.addText "")))
    else if c = '"' then some (line.goto (.double (open'.addText "")))
    else if c = '$' then some (line.goto (.name open' []))
    else some (line.goto (.bare (open'.addChar c)))

def readSingle (word : OpenWord) (c : Char) : Cursor :=
  if c = '\'' then .bare word
  else if c = '\\' then .singleEscape word
  else .single (word.addChar c)

def readDouble (word : OpenWord) (c : Char) : Cursor :=
  if c = '"' then .bare word
  else if c = '\\' then .doubleEscape word
  else if c = '$' then .doubleName word []
  else .double (word.addChar c)

def readDoubleEscape (word : OpenWord) (c : Char) : OpenWord :=
  if c = 'n' then word.addChar '\n'
  else if c = 't' then word.addChar '\t'
  else if c = '"' ∨ c = '\\' ∨ c = '$' then word.addChar c
  else if c = '\n' then word
  else (word.addChar '\\').addChar c

/-- The word behind a dollar sign once the name has ended; a dollar sign without
a name is text. -/
def endName (word : OpenWord) (letters : List Char) : OpenWord :=
  if letters.isEmpty then word.addChar '$' else word.addVar letters

/-- Whether a character carries on the name behind a dollar sign. -/
def extendsName (letters : List Char) (c : Char) : Bool :=
  if letters.isEmpty then isNameStart c else isNameChar c

/-- A character of a logical line; the word that the line ends with is given
where it ends. -/
def readLine (line : OpenLine) (c : Char) : OpenLine ⊕ Line :=
  let outside (word : Option OpenWord) :=
    match readBare line word c with
    | some line => .inl line
    | none => .inr (line.close word)
  match line.cursor with
  | .gap => outside none
  | .remark => if c = '\n' then .inr (line.close none) else .inl line
  | .bare word => outside (some word)
  | .escape word =>
    if c = '\n' then .inl (line.endWord word)
    else .inl (line.goto (.bare ((word.getD []).addChar c)))
  | .name word letters =>
    if extendsName letters c then .inl (line.goto (.name word (c :: letters)))
    else outside (some (endName word letters))
  | .single word => .inl (line.goto (readSingle word c))
  | .singleEscape word =>
    if c = '\'' ∨ c = '\\' then .inl (line.goto (.single (word.addChar c)))
    else .inl (line.goto (readSingle (word.addChar '\\') c))
  | .double word => .inl (line.goto (readDouble word c))
  | .doubleEscape word => .inl (line.goto (.double (readDoubleEscape word c)))
  | .doubleName word letters =>
    if extendsName letters c then .inl (line.goto (.doubleName word (c :: letters)))
    else .inl (line.goto (readDouble (endName word letters) c))

def advance (scan : Scan) (line : OpenLine) (c : Char) : Scan :=
  match readLine line c with
  | .inl line => { scan with place := .within line }
  | .inr line => { scan with lines := line :: scan.lines, place := .indent 0 }

/-- What a character changes, apart from the number of the physical line. -/
def read (scan : Scan) (c : Char) : Scan :=
  match scan.place with
  | .indent width =>
    if c = ' ' ∨ c = '\t' then { scan with place := .indent (width + 1) }
    else if c = '\n' then
      { scan with
        lines := if width = 0 then .blank :: scan.lines else scan.lines
        place := .indent 0 }
    else if c = '#' then { scan with place := .comment }
    else advance scan ⟨scan.number, width, [], .gap⟩ c
  | .comment => if c = '\n' then { scan with place := .indent 0 } else scan
  | .within line => advance scan line c

def step (scan : Scan) (c : Char) : Scan :=
  { read scan c with number := if c = '\n' then scan.number + 1 else scan.number }

def finish (scan : Scan) : Except Unfinished (List Line) :=
  match scan.place with
  | .indent _ | .comment => .ok scan.lines.reverse
  | .within line =>
    let closed (word : Option OpenWord) := .ok (line.close word :: scan.lines).reverse
    match line.cursor with
    | .gap | .remark => closed none
    | .bare word => closed (some word)
    | .name word letters => closed (some (endName word letters))
    | .escape _ => .error .openContinuation
    | .single _ | .singleEscape _ | .double _ | .doubleEscape _ | .doubleName _ _ =>
      .error .openQuote

def ofChars (text : List Char) : Scan :=
  text.foldl step initial

end Scan

def lines (text : List Char) : Except Unfinished (List Line) :=
  (Scan.ofChars text).finish

end Language
end LineShell
