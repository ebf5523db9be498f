import LineShell.Text.Utf8

/-!
# Paths

A path is a text whose parts are divided by slashes; one that begins with a slash
is absolute.  Joining reads a path as seen from another one.  The bytes of a path
need not be UTF-8: one that belongs to no character is written as a zero, which no
path holds, and the character whose number it is.
-/

namespace LineShell
namespace Path

open Text

/-- The character that announces a byte which belongs to no character. -/
def announcer : Char := Char.ofNat 0

def ofBytes (bytes : Bytes) : String :=
  String.ofList ((Utf8.split bytes).flatMap fun piece =>
    match piece with
    | .char c _ => [c]
    | .bad bytes => bytes.flatMap fun byte => [announcer, Char.ofNat byte.toNat])

def bytesOf : List Char → Bytes
  | [] => []
  | [c] => Utf8.encodeChars [c]
  | c :: d :: rest =>
    if c = announcer then UInt8.ofNat d.toNat :: bytesOf rest
    else Utf8.encodeChars [c] ++ bytesOf (d :: rest)

def size (path : String) : Nat :=
  (bytesOf path.toList).length

def isAbsolute (path : String) : Bool :=
  path.toList.head? == some '/'

/-- A path as seen from a base; an absolute path stands for itself. -/
def join (base path : String) : String :=
  if isAbsolute path || base.isEmpty then path
  else if base.toList.getLast? == some '/' then base ++ path
  else base ++ "/" ++ path

def splitAt (c : Char) : List Char → List (List Char)
  | [] => [[]]
  | d :: rest =>
    if d = c then [] :: splitAt c rest
    else match splitAt c rest with
      | [] => [[d]]
      | first :: others => (d :: first) :: others

def parts (path : String) : List String :=
  (splitAt '/' path.toList).map String.ofList

def isIdle (part : String) : Bool :=
  part = "" || part = "."

def names (path : String) : List String :=
  (parts path).filter fun part => !isIdle part

/-- The most bytes that a name may have. -/
def nameLimit : Nat := 255

/-- The most bytes that a path may have. -/
def lengthLimit : Nat := 4095

/-- The path of the directory that holds what a path names, if the path has a name:
what stands before the last name, without idle parts at its end.  For a sole name
that is nothing, or the root. -/
def parent? (path : String) : Option String :=
  match (parts path).reverse.dropWhile isIdle with
  | [] => none
  | _ :: before =>
    match before.dropWhile isIdle with
    | [] => some (if isAbsolute path then "/" else "")
    | above => some ("/".intercalate above.reverse)

/-- The part of a file name after its last point, unless the name only begins
with that point. -/
def extension? (name : String) : Option String :=
  match (splitAt '.' name.toList).reverse with
  | [] | [_] => none
  | last :: others =>
    if others = [[]] then none else some (String.ofList last)

end Path
end LineShell
